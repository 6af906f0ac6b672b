import Mathlib.Logic.Relation
import RoutedSession.Proofs.Handshake.RoundTrip
import RoutedSession.Proofs.Json.Variations
import RoutedSession.Proofs.Json.Wellformed

namespace RoutedSession

open Json Json.Read

namespace ServerInfo

def names : List String := ["dict", "heartbeat", "serializer"]

/-- What each field counts as if it is left out. -/
def defaults : List (String × Form) :=
  [("dict", .object []), ("heartbeat", .number .zero), ("serializer", .text [])]

theorem settled_code : Settled code :=
  (settled_naturalBelow _).map _

theorem settled_seconds : Settled seconds :=
  (settled_naturalBelow _).map _

theorem independent_fields (depth : Nat) : Independent fields (depth + 1) := by
  refine independent_of_pairwise ?_ ?_ ?_
  · simp only [fields, List.forall_mem_cons]
    exact ⟨settled_keep (settled_map settled_code), settled_keep settled_seconds,
      settled_keep settled_quoted, nofun⟩
  · simp only [fields, List.forall_mem_cons]
    exact ⟨apart_self fun _ _ => rfl, apart_self fun _ _ => rfl, apart_self fun _ _ => rfl, nofun⟩
  · simp only [fields, List.pairwise_cons, List.forall_mem_cons]
    exact ⟨⟨apart_keep (fun _ _ => rfl) (fun _ _ => rfl) fun _ _ _ => rfl,
      apart_keep (fun _ _ => rfl) (fun _ _ => rfl) fun _ _ _ => rfl, nofun⟩,
      ⟨apart_keep (fun _ _ => rfl) (fun _ _ => rfl) fun _ _ _ => rfl, nofun⟩, nofun, .nil⟩

theorem countsAs_defaults (depth : Nat) :
    ∀ filled ∈ defaults, CountsAs fields (depth + 1) {} ofParts filled.1 filled.2 := by
  have hdict : told (map (depth + 1) fun _ => code) (Form.object []).tokens = some [] :=
    (reads_map_object settled_code []).told_eq
  have hheartbeat : told seconds (Form.number .zero).tokens = some 0 :=
    ((reads_number _ .zero).map Nat.toUInt64).told_eq
  have hserializer : told quoted (Form.text []).tokens = some "" :=
    (reads_text []).told_eq
  simp only [defaults, List.forall_mem_cons]
  refine ⟨countsAs_keep rfl rfl hdict ?_, countsAs_keep rfl rfl hheartbeat ?_,
    countsAs_keep rfl rfl hserializer ?_, nofun⟩
  · intro parts hnone
    simp only [ofParts, hnone]
    rfl
  · intro parts hnone
    simp only [ofParts, hnone]
    rfl
  · intro parts hnone
    simp only [ofParts, hnone]
    rfl

theorem sound_fields (depth : Nat) :
    ∀ field ∈ fields, ∀ parts, Sound (field.read (depth + 1) parts) := by
  have hcode : Sound code := (sound_naturalBelow _).map _
  have hseconds : Sound seconds := (sound_naturalBelow _).map _
  simp only [fields, List.forall_mem_cons]
  exact ⟨sound_keep (sound_map hcode), sound_keep hseconds, sound_keep sound_quoted, nofun⟩

theorem told_varied {entries entries' : List Form.Member} (depth : Nat)
    (hvaried : Varied names defaults entries entries') :
    told (reader (depth + 2)) (Form.object entries).tokens =
      told (reader (depth + 2)) (Form.object entries').tokens :=
  told_record_varied (independent_fields depth) rfl (countsAs_defaults depth) hvaried

end ServerInfo

namespace HandshakeResponse

def names : List String := ["code", "sys"]

/-- What the fields that may be left out count as. -/
def defaults : List (String × Form) := [("sys", .object [])]

/-- One change to an answer that leaves it as it is: to its own members, or to those of what the
server says. -/
inductive Changed : Form → Form → Prop where
  | answer {entries entries' : List Form.Member}
      (hvaried : Varied names defaults entries entries') :
      Changed (.object entries) (.object entries')
  | server {name : List Stroke} {entries entries' rest : List Form.Member}
      (hname : Stroke.string? name = some "sys")
      (hvaried : Varied ServerInfo.names ServerInfo.defaults entries entries') :
      Changed (.object ((name, .object entries) :: rest))
        (.object ((name, .object entries') :: rest))

/-- Two forms of an answer differ only in such changes. -/
def Alike : Form → Form → Prop :=
  Relation.EqvGen Changed

theorem Changed.alike {form form' : Form} (hchanged : Changed form form') : Alike form form' :=
  .rel form form' hchanged

theorem Alike.symm {form form' : Form} (halike : Alike form form') : Alike form' form :=
  Relation.EqvGen.symm form form' halike

theorem Alike.trans {first second third : Form} (hfirst : Alike first second)
    (hsecond : Alike second third) : Alike first third :=
  Relation.EqvGen.trans first second third hfirst hsecond

theorem independent_fields (depth : Nat) : Independent fields (depth + 2) := by
  refine independent_of_pairwise ?_ ?_ ?_
  · simp only [fields, List.forall_mem_cons]
    exact ⟨settled_keep ServerInfo.settled_code,
      settled_keep (settled_record (ServerInfo.independent_fields depth).settled), nofun⟩
  · simp only [fields, List.forall_mem_cons]
    exact ⟨apart_self fun _ _ => rfl, apart_self fun _ _ => rfl, nofun⟩
  · simp only [fields, List.pairwise_cons, List.forall_mem_cons]
    exact ⟨⟨apart_keep (fun _ _ => rfl) (fun _ _ => rfl) fun _ _ _ => rfl, nofun⟩, nofun, .nil⟩

theorem countsAs_defaults (depth : Nat) :
    ∀ filled ∈ defaults, CountsAs fields (depth + 2) {} ofParts filled.1 filled.2 := by
  have hserver : told (ServerInfo.reader (depth + 2)) (Form.object []).tokens = some {} :=
    (reads_record_object (ServerInfo.independent_fields depth).settled []).told_eq
  simp only [defaults, List.forall_mem_cons]
  refine ⟨countsAs_keep rfl rfl hserver ?_, nofun⟩
  intro parts hnone
  simp only [ofParts, hnone]
  rfl

/-- A change leaves an answer as it is. -/
theorem told_changed {form form' : Form} (depth : Nat) (hchanged : Changed form form') :
    told (record fields {} ofParts (depth + 3)) form.tokens =
      told (record fields {} ofParts (depth + 3)) form'.tokens := by
  cases hchanged with
  | answer hvaried =>
      exact told_record_varied (independent_fields depth) rfl (countsAs_defaults depth) hvaried
  | @server name entries entries' rest hname hvaried =>
      have hsettled := (independent_fields depth).settled
      have hstep : ∀ parts, memberStep (recordMember fields (depth + 2)) parts
          (name, .object entries) =
            memberStep (recordMember fields (depth + 2)) parts (name, .object entries') := by
        intro parts
        have hfield : fields.find? (·.name == "sys") =
            some (.keep "sys" (·.server) ({ · with server := some · }) ServerInfo.reader) := rfl
        rw [memberStep_recordMember hsettled, memberStep_recordMember hsettled, hname,
          Option.bind_some, Option.bind_some, hfield]
        dsimp only
        rw [fieldStep_keep, fieldStep_keep, ServerInfo.told_varied depth hvaried]
      rw [(reads_record_object hsettled _).told_eq, (reads_record_object hsettled _).told_eq,
        gather_cons, gather_cons, hstep]

theorem told_alike {form form' : Form} (depth : Nat) (halike : Alike form form') :
    told (record fields {} ofParts (depth + 3)) form.tokens =
      told (record fields {} ofParts (depth + 3)) form'.tokens := by
  induction halike with
  | rel _ _ hchanged => exact told_changed depth hchanged
  | refl _ => rfl
  | symm _ _ _ ih => exact ih.symm
  | trans _ _ _ _ _ ih ih' => exact ih.trans ih'

theorem settled_answer : Settled (record fields {} ofParts maxDepth) :=
  settled_record (independent_fields 124).settled

theorem sound_answer : Sound (record fields {} ofParts maxDepth) := by
  have hcode : Sound ServerInfo.code := (sound_naturalBelow _).map _
  have hserver : Sound (ServerInfo.reader 126) := sound_record (ServerInfo.sound_fields 124)
  refine sound_record ?_
  simp only [fields, List.forall_mem_cons]
  exact ⟨sound_keep hcode, sound_keep hserver, nofun⟩

theorem first_ne_magic (form : Form) : form.first ≠ 0x1f := by
  cases form with
  | null | text _ | array _ | object _ => rw [Form.first]; decide
  | bool b => cases b <;> rw [Form.first] <;> decide
  | number written => exact Form.first_number_ne written (by decide)

theorem plainText_of_spells {form : Form} {text : Bytes} (hform : form.Spells text) :
    plainText text = .ok text := by
  have hbyte : ∃ b rest, text = b :: rest ∧ b ≠ 0x1f := by
    obtain ⟨after, hspaced, -⟩ := hform
    obtain ⟨tail, more, htokens, -⟩ := form.exists_tokens
    rw [htokens] at hspaced
    cases hspaced with
    | cons space _ hspace _ =>
        cases space with
        | nil => exact ⟨_, _, rfl, first_ne_magic form⟩
        | cons b space =>
            refine ⟨b, _, rfl, ?_⟩
            rintro rfl
            exact absurd (hspace 0x1f List.mem_cons_self) (by decide)
  obtain ⟨b, rest, rfl, hb⟩ := hbyte
  have hplain : Gzip.isCompressed (b :: rest) = false := by
    simp [Gzip.isCompressed, Gzip.magic, List.isPrefixOf, Ne.symm hb]
  rw [plainText, hplain]
  rfl

theorem parse_eq_ok_iff {payload text : Bytes} (hplain : plainText payload = .ok text)
    (response : HandshakeResponse) :
    parse payload = .ok response ↔ ofText text = .ok response ∧ response.code = accepted := by
  rw [parse, hplain]
  simp only [bind, Except.bind]
  cases ofText text with
  | error e =>
      constructor
      · intro hsame
        cases hsame
      · rintro ⟨hfound, -⟩
        cases hfound
  | ok found =>
      simp only [Except.mapError, Except.ok.injEq]
      split
      · rename_i haccepted
        constructor
        · intro hsame
          obtain rfl := Except.ok.inj hsame
          exact ⟨rfl, haccepted⟩
        · rintro ⟨rfl, -⟩
          rfl
      · rename_i hrefused
        constructor
        · intro hsame
          cases hsame
        · rintro ⟨rfl, haccepted⟩
          exact absurd haccepted hrefused

/-- An answer that accepts the offer is a JSON text, and it is the same answer in another order,
with other space, with members of other names, and with fields left out that are empty or given as
empty that were left out. -/
theorem parse_eq_ok_of_alike {payload text : Bytes} {response : HandshakeResponse}
    (hplain : plainText payload = .ok text) (hread : parse payload = .ok response) :
    (∃ form : Form, form.Spells text) ∧
      ∀ {form form' : Form} {text' : Bytes}, form.Spells text → Alike form form' →
        form'.Spells text' → parse text' = .ok response := by
  obtain ⟨htext, haccepted⟩ := (parse_eq_ok_iff hplain response).mp hread
  refine ⟨exists_spells_of_whole sound_answer htext, ?_⟩
  intro form form' text' hform halike hform'
  refine (parse_eq_ok_iff (plainText_of_spells hform') response).mpr ⟨?_, haccepted⟩
  have hsame : (ofText text').toOption = (ofText text).toOption := by
    rw [ofText, ofText, whole_of_spells settled_answer hform, whole_of_spells settled_answer hform']
    exact (told_alike 124 halike).symm
  rw [htext] at hsame
  cases hother : ofText text' with
  | error e =>
      rw [hother] at hsame
      cases hsame
  | ok found =>
      rw [hother] at hsame
      rw [Option.some.inj hsame]

/-- A member with a name that needs no escapes. -/
def plainMember (name : String) (value : Form) : Form.Member :=
  (Stroke.plainly (Bytes.ofString name), value)

def codeMember : Form.Member :=
  plainMember "code"
    (.number ⟨false, .ofAll [0x32, 0x30, 0x30] (by decide) (by decide), none, none, by decide⟩)

/-- The member for no routes. -/
def dictMember : Form.Member :=
  plainMember "dict" (.object [])

def heartbeatMember : Form.Member :=
  plainMember "heartbeat"
    (.number ⟨false, .ofAll [0x33] (by decide) (by decide), none, none, by decide⟩)

def serializerMember : Form.Member :=
  plainMember "serializer" (.text [])

/-- The number -1.5e+3. -/
def fraction : Form :=
  .number ⟨true, .ofAll [0x31] (by decide) (by decide),
    some (.ofAll [0x35] (by decide) (by decide)), some ⟨Mark.smallE, [Mark.plus],
      .ofAll [0x33] (by decide) (by decide), .inl rfl, .inr (.inl rfl)⟩, by decide⟩

/-- An answer that accepts the offer and asks for heartbeats. -/
def beating : HandshakeResponse where
  code := 200
  server := { heartbeat := 3 }

/-- How it is printed. -/
def beatingForm : Form :=
  .object [codeMember, plainMember "sys" (.object [dictMember, heartbeatMember, serializerMember])]

/-- The code behind what the server says. -/
def codeLast (entries : List Form.Member) : Form :=
  .object [plainMember "sys" (.object entries), codeMember]

/-- The same answer with a member more at both levels and without the fields that are empty. -/
def newerForm : Form :=
  .object [plainMember "next" (.array [.object [plainMember "deep" .null], fraction]),
    plainMember "sys" (.object [plainMember "more" (.bool true), heartbeatMember]), codeMember]

/-- How another server writes it. -/
def newerText : Bytes :=
  Bytes.ofString (" \x7b\"next\" : [ \x7b\"deep\":null\x7d,-1.5e+3 ],\n \"sys\":" ++
    "\x7b\t\"more\":true,\"heartbeat\":3 \x7d, \"code\" :200 \x7d\n")

theorem alike_newer : Alike beatingForm newerForm := by
  have hplain : ∀ name ∈ ["sys", "dict", "heartbeat", "serializer", "next", "more"],
      ∀ b ∈ Bytes.ofString name, b ≠ Mark.quote ∧ b ≠ Mark.backslash ∧ ¬b < Mark.space := by
    decide +kernel
  have hname : ∀ name ∈ ["sys", "dict", "heartbeat", "serializer", "next", "more"],
      Stroke.string? (Stroke.plainly (Bytes.ofString name)) = some name :=
    fun name hmem => Stroke.string?_plainly (hplain name hmem)
  have hheartbeat : Stroke.string? heartbeatMember.1 = some "heartbeat" := hname _ (by decide)
  have hserializer : Stroke.string? serializerMember.1 = some "serializer" := hname _ (by decide)
  have hserver : ∀ {entries entries' : List Form.Member},
      Varied ServerInfo.names ServerInfo.defaults entries entries' →
        Alike (codeLast entries) (codeLast entries') :=
    fun hvaried => (Changed.server (hname "sys" (by decide)) hvaried).alike
  have hordered : Alike beatingForm (codeLast [dictMember, heartbeatMember, serializerMember]) :=
    (Changed.answer (.reordered (.swap _ _ _))).alike
  have hdict : Alike (codeLast [heartbeatMember, serializerMember])
      (codeLast [dictMember, heartbeatMember, serializerMember]) :=
    hserver (.filled (hname "dict" (by decide)) (.head _) (by simp [hheartbeat, hserializer]))
  have hswapped : Alike (codeLast [heartbeatMember, serializerMember])
      (codeLast [serializerMember, heartbeatMember]) :=
    hserver (.reordered (.swap _ _ _))
  have hfilled : Alike (codeLast [heartbeatMember])
      (codeLast [serializerMember, heartbeatMember]) :=
    hserver (.filled hserializer (.tail _ (.tail _ (.head _))) (by simp [hheartbeat]))
  have hmore : Alike (codeLast [heartbeatMember])
      (codeLast [plainMember "more" (.bool true), heartbeatMember]) :=
    hserver (.extended _ (hname "more" (by decide)) (by decide))
  have hnext : Alike (codeLast [plainMember "more" (.bool true), heartbeatMember]) newerForm :=
    (Changed.answer (.extended _ (hname "next" (by decide)) (by decide))).alike
  exact hordered.trans (hdict.symm.trans (hswapped.trans (hfilled.symm.trans (hmore.trans hnext))))

theorem parse_eq_ok_of_alike_newer : parse newerText = .ok beating := by
  have htext : beating.text = beatingForm.tokens.flatten ++ [] := by decide +kernel
  have hread : parse beating.text = .ok beating :=
    (parse_eq_ok_iff beating.plainText_text beating).mpr
      ⟨@ofText_text beating [] .nil (.refl _), rfl⟩
  have hform : beatingForm.Spells beating.text := by
    rw [htext]
    exact ⟨[], spaced_flatten _ _, nofun⟩
  have hform' : newerForm.Spells newerText := by
    have hafter : afterTokens? newerForm.tokens newerText = some [0x0a] := by decide +kernel
    exact Form.spells_of_afterTokens? hafter (by decide)
  exact (parse_eq_ok_of_alike beating.plainText_text hread).2 hform alike_newer hform'

end HandshakeResponse

end RoutedSession
