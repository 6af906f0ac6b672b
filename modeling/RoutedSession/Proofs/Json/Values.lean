import RoutedSession.Proofs.Json.Numbers
import RoutedSession.Proofs.Json.Sorted

namespace RoutedSession.Json

mutual

/-- How deep arrays and objects nest in a value. -/
def depth : Json → Nat
  | .array items => depthItems items + 1
  | .object members => depthMembers members + 1
  | .null | .bool _ | .number _ | .string _ => 0

def depthItems : List Json → Nat
  | [] => 0
  | item :: rest => max (depth item) (depthItems rest)

def depthMembers : List (String × Json) → Nat
  | [] => 0
  | (_, value) :: rest => max (depth value) (depthMembers rest)

end

mutual

/-- A value that its printed form determines: numbers are integers of 64 bits, and the names of an
object ascend. -/
def Exact : Json → Prop
  | .null | .bool _ | .string _ => True
  | .number (.int value) => FitsWord value
  | .number (.float _) => False
  | .array items => ExactItems items
  | .object members => KeysAscend members ∧ ExactMembers members

def ExactItems : List Json → Prop
  | [] => True
  | item :: rest => Exact item ∧ ExactItems rest

def ExactMembers : List (String × Json) → Prop
  | [] => True
  | (_, value) :: rest => Exact value ∧ ExactMembers rest

end

mutual

def decideExact : (json : Json) → Decidable json.Exact
  | .null | .bool _ | .string _ => .isTrue trivial
  | .number (.int value) => inferInstanceAs (Decidable (FitsWord value))
  | .number (.float _) => .isFalse id
  | .array items => decideItems items
  | .object members =>
      have := decideMembers members
      inferInstanceAs (Decidable (KeysAscend members ∧ ExactMembers members))

def decideItems : (items : List Json) → Decidable (ExactItems items)
  | [] => .isTrue trivial
  | item :: rest =>
      have := decideExact item
      have := decideItems rest
      inferInstanceAs (Decidable (item.Exact ∧ ExactItems rest))

def decideMembers : (members : List (String × Json)) → Decidable (ExactMembers members)
  | [] => .isTrue trivial
  | (_, value) :: rest =>
      have := decideExact value
      have := decideMembers rest
      inferInstanceAs (Decidable (value.Exact ∧ ExactMembers rest))

end

instance : DecidablePred Exact :=
  decideExact

theorem printItems_eq (items : List Json) : printItems items = items.map print := by
  induction items with
  | nil => rfl
  | cons item rest ih => rw [printItems, ih, List.map_cons]

/-- The written form of an object with given names and written values. -/
def objectText (entries : List (String × Bytes)) : Bytes :=
  Mark.openObject :: Read.led true (Read.written entries) ++ [Mark.closeObject]

theorem print_object (members : List (String × Json)) :
    print (.object members) =
      objectText (members.map fun member => (member.1, member.2.print)) := by
  have hmembers : printMembers members =
      Read.written (members.map fun member => (member.1, member.2.print)) := by
    induction members with
    | nil => rfl
    | cons member rest ih =>
        obtain ⟨name, value⟩ := member
        rw [printMembers, ih]
        rfl
  rw [print, hmembers, Read.separate_eq_led, objectText]

namespace Read

theorem starts_object (entries : List (String × Bytes)) :
    ∃ b rest, objectText entries = b :: rest ∧ isSpace b = false ∧ b ≠ Mark.closeArray :=
  ⟨_, _, rfl, by decide, by decide⟩

theorem exists_members {σ : Type} {member : σ → String → Reader σ} {start last : σ}
    {entries : List (String × Bytes)} (hentries : Gathers member start entries last)
    (after : Bytes) :
    ∃ (rest : Rest (objectText entries ++ after)) (behind : Rest rest.val),
      next (objectText entries ++ after) = .ok (Mark.openObject, rest) ∧
        members member rest.val true start rest.val (Nat.le_refl _) = .ok (last, behind) ∧
          behind.val = after := by
  have hopen := finds_next (show isSpace Mark.openObject = false by decide)
    (led true (written entries) ++ Mark.closeObject :: after)
  have htext : objectText entries ++ after =
      Mark.openObject :: (led true (written entries) ++ Mark.closeObject :: after) := by
    simp [objectText]
  rw [← htext] at hopen
  obtain ⟨rest, hnext, hrest⟩ := hopen
  obtain ⟨behind, hread, hbehind⟩ :=
    members_led hentries rest.val true rest.val (Nat.le_refl _) after hrest
  exact ⟨rest, behind, hnext, hread, hbehind⟩

theorem writes_object {depth : Nat} {entries : List (String × Bytes)}
    {members : List (String × Json)}
    (hentries : Gathers (keptMember (value depth)) [] entries members) :
    Writes (value (depth + 1)) (objectText entries) (.object members) where
  starts := starts_object entries
  finds := by
    intro after _
    obtain ⟨rest, behind, hnext, hread, hbehind⟩ := exists_members hentries after
    refine ⟨rest.andThen behind, ?_, hbehind⟩
    simp only [value, hnext, bind, Except.bind]
    rw [if_neg (by decide), if_neg (by decide), if_neg (by decide), if_neg (by decide),
      if_neg (by decide), if_neg (by decide), if_true]
    simp only [hread]
    rfl

theorem writes_array {depth : Nat} {items : List Json}
    (hitems : ∀ item ∈ items, Writes (value depth) item.print item) :
    Writes (value (depth + 1)) (print (.array items)) (.array items) where
  starts := ⟨_, _, rfl, by decide, by decide⟩
  finds := by
    intro after _
    have hparts : ∀ part ∈ items.map fun item => (item.print, item),
        Writes (value depth) part.1 part.2 := by
      intro part hpart
      obtain ⟨item, hitem, rfl⟩ := List.mem_map.mp hpart
      exact hitems item hitem
    have hopen := finds_next (show isSpace Mark.openArray = false by decide)
      (led true (items.map print) ++ Mark.closeArray :: after)
    have htext : print (.array items) ++ after =
        Mark.openArray :: (led true (items.map print) ++ Mark.closeArray :: after) := by
      simp [print, printItems_eq, separate_eq_led]
    rw [← htext] at hopen
    obtain ⟨rest, hnext, hrest⟩ := hopen
    obtain ⟨behind, hread, hbehind⟩ := items_led hparts rest.val [] rest.val (Nat.le_refl _) after
      (by rw [hrest, List.map_map]; rfl)
    refine ⟨rest.andThen behind, ?_, hbehind⟩
    simp only [value, hnext, bind, Except.bind]
    rw [if_neg (by decide), if_neg (by decide), if_neg (by decide), if_neg (by decide),
      if_neg (by decide), if_true]
    have hitems : (items.map fun item => (item.print, item)).map (·.2) = items :=
      (List.map_map ..).trans (List.map_id items)
    rw [List.reverse_nil, List.nil_append, hitems] at hread
    simp only [hread]
    rfl

theorem exists_quoted (content : String) (after : Bytes) :
    ∃ (rest : Rest (printText content ++ after)) (behind : Rest rest.val),
      next (printText content ++ after) = .ok (Mark.quote, rest) ∧
        text rest.val = .ok (content, behind) ∧ behind.val = after := by
  have hquote := finds_next (show isSpace Mark.quote = false by decide)
    ((Bytes.ofString content).flatMap escapeByte ++ Mark.quote :: after)
  have htext : printText content ++ after = Mark.quote ::
      ((Bytes.ofString content).flatMap escapeByte ++ Mark.quote :: after) := by
    simp [printText]
  rw [← htext] at hquote
  obtain ⟨rest, hnext, hrest⟩ := hquote
  have hcontent := finds_text content after
  rw [← hrest] at hcontent
  obtain ⟨behind, hread, hbehind⟩ := hcontent
  exact ⟨rest, behind, hnext, hread, hbehind⟩

theorem writes_string (depth : Nat) (content : String) :
    Writes (value depth) (printText content) (.string content) where
  starts := ⟨_, _, rfl, by decide, by decide⟩
  finds := by
    intro after _
    obtain ⟨rest, behind, hnext, hread, hbehind⟩ := exists_quoted content after
    refine ⟨rest.andThen behind, ?_, hbehind⟩
    simp only [value, hnext, bind, Except.bind]
    rw [if_neg (by decide), if_neg (by decide), if_neg (by decide), if_neg (by decide), if_true]
    simp only [hread]
    rfl

theorem startsNumber_ne {b : UInt8} (hb : startsNumber b = true) :
    isSpace b = false ∧ b ≠ Mark.closeArray ∧ b ≠ Mark.smallN ∧ b ≠ Mark.smallT ∧
      b ≠ Mark.smallF := by
  have hall : ∀ n < 256, startsNumber n.toUInt8 = true →
      isSpace n.toUInt8 = false ∧ n.toUInt8 ≠ Mark.closeArray ∧ n.toUInt8 ≠ Mark.smallN ∧
        n.toUInt8 ≠ Mark.smallT ∧ n.toUInt8 ≠ Mark.smallF := by decide +kernel
  have hbyte := hall b.toNat b.toNat_lt
  rw [show b.toNat.toUInt8 = b from UInt8.ofNat_toNat] at hbyte
  exact hbyte hb

theorem writes_int (depth : Nat) {n : Int} (hn : FitsWord n) :
    Writes (value depth) (printNumber (.int n)) (.number (.int n)) := by
  obtain ⟨b, tail, htext, hstarts, hnumber⟩ := exists_number hn
  obtain ⟨hspace, hclose, hnull, htrue, hfalse⟩ := startsNumber_ne hstarts
  rw [htext]
  refine ⟨⟨b, tail, rfl, hspace, hclose⟩, fun after hafter => ?_⟩
  obtain ⟨rest, hnext, hrest⟩ := finds_next hspace (tail ++ after)
  have hfound := hnumber after hafter
  rw [← hrest] at hfound
  obtain ⟨behind, hread, hbehind⟩ := hfound
  show Finds (value depth) (b :: (tail ++ after)) _ after
  refine ⟨rest.fromFirst behind, ?_, hbehind⟩
  simp only [value, hnext, bind, Except.bind, hstarts, if_neg hnull, if_neg htrue, if_neg hfalse,
    if_true]
  simp only [hread]
  rfl

theorem word_append (expected after : Bytes) :
    ∃ left : Left (expected ++ after), word expected (expected ++ after) = .ok left ∧
      left.val = after := by
  induction expected with
  | nil => exact ⟨.all after, rfl, rfl⟩
  | cons b expected ih =>
      obtain ⟨left, hread, hleft⟩ := ih
      exact ⟨left.pastFirst, by simp only [List.cons_append, word, hread, if_true], hleft⟩

theorem exists_word {b : UInt8} (hb : isSpace b = false) (expected after : Bytes) :
    ∃ (rest : Rest (b :: expected ++ after)) (left : Left rest.val),
      next (b :: expected ++ after) = .ok (b, rest) ∧ word expected rest.val = .ok left ∧
        left.val = after := by
  obtain ⟨rest, hnext, hrest⟩ := finds_next hb (expected ++ after)
  have hword := word_append expected after
  rw [← hrest] at hword
  obtain ⟨left, hread, hleft⟩ := hword
  exact ⟨rest, left, hnext, hread, hleft⟩

theorem writes_null (depth : Nat) : Writes (value depth) (Bytes.ofString "null") .null := by
  have htext : Bytes.ofString "null" = Mark.smallN :: nullEnd := by decide +kernel
  rw [htext]
  refine ⟨⟨_, _, rfl, by decide, by decide⟩, fun after _ => ?_⟩
  obtain ⟨rest, left, hnext, hread, hleft⟩ :=
    exists_word (show isSpace Mark.smallN = false by decide) nullEnd after
  refine ⟨rest.upTo left, ?_, hleft⟩
  simp only [value, hnext, bind, Except.bind, if_true, hread]
  rfl

theorem writes_true (depth : Nat) : Writes (value depth) (Bytes.ofString "true") (.bool true) := by
  have htext : Bytes.ofString "true" = Mark.smallT :: trueEnd := by decide +kernel
  rw [htext]
  refine ⟨⟨_, _, rfl, by decide, by decide⟩, fun after _ => ?_⟩
  obtain ⟨rest, left, hnext, hread, hleft⟩ :=
    exists_word (show isSpace Mark.smallT = false by decide) trueEnd after
  have hother : Mark.smallT ≠ Mark.smallN := by decide
  refine ⟨rest.upTo left, ?_, hleft⟩
  simp only [value, hnext, bind, Except.bind, if_neg hother, if_true, hread]
  rfl

theorem writes_false (depth : Nat) :
    Writes (value depth) (Bytes.ofString "false") (.bool false) := by
  have htext : Bytes.ofString "false" = Mark.smallF :: falseEnd := by decide +kernel
  rw [htext]
  refine ⟨⟨_, _, rfl, by decide, by decide⟩, fun after _ => ?_⟩
  obtain ⟨rest, left, hnext, hread, hleft⟩ :=
    exists_word (show isSpace Mark.smallF = false by decide) falseEnd after
  have hnull : Mark.smallF ≠ Mark.smallN := by decide
  have htrue : Mark.smallF ≠ Mark.smallT := by decide
  refine ⟨rest.upTo left, ?_, hleft⟩
  simp only [value, hnext, bind, Except.bind, if_neg hnull, if_neg htrue, if_true, hread]
  rfl

theorem gathers_kept {α : Type} {reader : Reader α} {print : α → Bytes}
    {entries : List (String × α)}
    (hentries : ∀ entry ∈ entries, Writes reader (print entry.2) entry.2)
    (gathered : List (String × α)) :
    Gathers (keptMember reader) gathered
      (entries.map fun entry => (entry.1, print entry.2)) (setAll entries gathered) := by
  induction entries generalizing gathered with
  | nil => exact .nil
  | cons entry rest ih =>
      obtain ⟨name, value⟩ := entry
      rw [List.forall_mem_cons] at hentries
      refine .cons (fun after hafter => ?_) (ih hentries.2 (insertSorted name value gathered))
      obtain ⟨behind, hread, hbehind⟩ := finds_afterColon (hentries.1.finds after hafter)
      exact ⟨behind, by rw [keptMember, hread]; rfl, hbehind⟩

end Read

mutual

theorem writes_value {depth : Nat} : (json : Json) → json.Exact → json.depth ≤ depth →
    Read.Writes (Read.value depth) json.print json
  | .null, _, _ => Read.writes_null depth
  | .bool true, _, _ => Read.writes_true depth
  | .bool false, _, _ => Read.writes_false depth
  | .number (.int _), hexact, _ => Read.writes_int depth hexact
  | .string content, _, _ => Read.writes_string depth content
  | .array items, hexact, hdepth => by
      obtain ⟨depth, rfl⟩ := Nat.exists_eq_add_of_le' (Nat.le_trans (Nat.succ_pos _) hdepth)
      exact Read.writes_array (writes_items items hexact (Nat.le_of_succ_le_succ hdepth))
  | .object members, hexact, hdepth => by
      obtain ⟨depth, rfl⟩ := Nat.exists_eq_add_of_le' (Nat.le_trans (Nat.succ_pos _) hdepth)
      have hmembers := writes_members members hexact.2 (Nat.le_of_succ_le_succ hdepth)
      have hgathers := Read.gathers_kept hmembers []
      rw [setAll_of_perm hexact.1 (List.Perm.refl _)] at hgathers
      rw [print_object]
      exact Read.writes_object hgathers

theorem writes_items {depth : Nat} : (items : List Json) → ExactItems items →
    depthItems items ≤ depth → ∀ item ∈ items, Read.Writes (Read.value depth) item.print item
  | [], _, _ => nofun
  | item :: rest, hexact, hdepth => by
      obtain ⟨hitem, hrest⟩ := Nat.max_le.mp hdepth
      exact List.forall_mem_cons.mpr
        ⟨writes_value item hexact.1 hitem, writes_items rest hexact.2 hrest⟩

theorem writes_members {depth : Nat} : (members : List (String × Json)) → ExactMembers members →
    depthMembers members ≤ depth →
      ∀ member ∈ members, Read.Writes (Read.value depth) member.2.print member.2
  | [], _, _ => nofun
  | (_, value) :: rest, hexact, hdepth => by
      obtain ⟨hvalue, hrest⟩ := Nat.max_le.mp hdepth
      exact List.forall_mem_cons.mpr
        ⟨writes_value value hexact.1 hvalue, writes_members rest hexact.2 hrest⟩

end

theorem whole_of_writes {α : Type} {reader : Read.Reader α} {text : Bytes} {value : α}
    (hwrites : Read.Writes reader text value) : Read.whole reader text = .ok value := by
  have hfinds := hwrites.finds [] nofun
  rw [List.append_nil] at hfinds
  obtain ⟨rest, hread, hrest⟩ := hfinds
  have hnone : Read.first? rest.val = none := by
    rw [hrest]
    rfl
  simp only [Read.whole, hread, hnone, bind, Except.bind]
  rfl

/-- What is printed is read back. -/
theorem parse_print {json : Json} (hexact : json.Exact) (hdepth : json.depth ≤ Read.maxDepth) :
    parse json.print = .ok json :=
  whole_of_writes (writes_value json hexact hdepth)

end RoutedSession.Json
