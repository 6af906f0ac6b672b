import Mathlib.Data.List.Pairwise
import Mathlib.Data.List.Perm.Basic
import RoutedSession.Proofs.Json.Gathering

namespace RoutedSession.Json

open Read

/-- One change to the members of a record: another order, a member more that is no field, or a field
given as it counts if it is left out. -/
inductive Varied (names : List String) (defaults : List (String × Form)) :
    List Form.Member → List Form.Member → Prop where
  | reordered {entries entries' : List Form.Member} (hperm : entries.Perm entries') :
      Varied names defaults entries entries'
  | extended {entries : List Form.Member} {name : List Stroke} {string : String} (value : Form)
      (hname : Stroke.string? name = some string) (hother : string ∉ names) :
      Varied names defaults entries ((name, value) :: entries)
  | filled {entries : List Form.Member} {name : List Stroke} {string : String} {value : Form}
      (hname : Stroke.string? name = some string) (hdefault : (string, value) ∈ defaults)
      (hleft : ∀ entry ∈ entries, Stroke.string? entry.1 ≠ some string) :
      Varied names defaults entries ((name, value) :: entries)

namespace Read

variable {α β σ : Type} {fields : List (RecordField σ)} {depth : Nat}

/-- Two fields of a record may be read in either order. -/
def Commute (depth : Nat) (x y : RecordField σ) : Prop :=
  ∀ gathered form form', (fieldStep depth x gathered form).bind (fieldStep depth y · form') =
    (fieldStep depth y gathered form').bind (fieldStep depth x · form)

/-- Whether a field has been read does not change when another is. -/
def Leaves (depth : Nat) (x y : RecordField σ) : Prop :=
  ∀ gathered form next, fieldStep depth x gathered form = some next →
    y.isRead next = y.isRead gathered

/-- Two fields of a record do not touch each other. -/
structure Apart (depth : Nat) (x y : RecordField σ) : Prop where
  commute : Commute depth x y
  leaves : x.name ≠ y.name → Leaves depth x y ∧ Leaves depth y x

/-- No two fields of a record touch each other. -/
structure Independent (fields : List (RecordField σ)) (depth : Nat) : Prop where
  settled : ∀ field ∈ fields, ∀ gathered, Settled (field.read depth gathered)
  apart : ∀ x ∈ fields, ∀ y ∈ fields, Apart depth x y

theorem memberStep_recordMember
    (hsettled : ∀ field ∈ fields, ∀ gathered, Settled (field.read depth gathered)) (gathered : σ)
    (entry : Form.Member) :
    memberStep (recordMember fields depth) gathered entry =
      (Stroke.string? entry.1).bind fun name =>
        match fields.find? (·.name == name) with
        | none => some gathered
        | some field => fieldStep depth field gathered entry.2 := by
  rw [memberStep]
  refine congrArg _ (funext fun name => ?_)
  exact (reads_recordMember hsettled gathered name entry.2).told_eq

theorem memberStep_comm (hfields : Independent fields depth) (gathered : σ) (a b : Form.Member) :
    (memberStep (recordMember fields depth) gathered a).bind
        (memberStep (recordMember fields depth) · b) =
      (memberStep (recordMember fields depth) gathered b).bind
        (memberStep (recordMember fields depth) · a) := by
  simp only [memberStep_recordMember hfields.settled]
  cases Stroke.string? a.1 with
  | none => simp
  | some name =>
      cases Stroke.string? b.1 with
      | none => simp
      | some name' =>
          simp only [Option.bind_some]
          cases hx : fields.find? (·.name == name) with
          | none => simp
          | some x =>
              cases hy : fields.find? (·.name == name') with
              | none => simp
              | some y =>
                  exact (hfields.apart x (List.mem_of_find?_eq_some hx) y
                    (List.mem_of_find?_eq_some hy)).commute gathered a.2 b.2

theorem gather_perm (hfields : Independent fields depth) (gathered? : Option σ)
    {entries entries' : List Form.Member} (hperm : entries.Perm entries') :
    gather (recordMember fields depth) gathered? entries =
      gather (recordMember fields depth) gathered? entries' := by
  have : RightCommutative fun gathered? entry =>
      Option.bind gathered? (memberStep (recordMember fields depth) · entry) := by
    constructor
    intro gathered? a b
    cases gathered? with
    | none => rfl
    | some gathered => exact memberStep_comm hfields gathered a b
  exact hperm.foldl_eq gathered?

theorem isRead_of_gather (hfields : Independent fields depth) {field : RecordField σ}
    (hfield : field ∈ fields) {entries : List Form.Member}
    (hleft : ∀ entry ∈ entries, Stroke.string? entry.1 ≠ some field.name) {gathered last : σ}
    (hgather : gather (recordMember fields depth) (some gathered) entries = some last) :
    field.isRead last = field.isRead gathered := by
  induction entries generalizing gathered with
  | nil =>
      obtain rfl : gathered = last := Option.some.inj hgather
      rfl
  | cons entry entries ih =>
      rw [List.forall_mem_cons] at hleft
      rw [gather_cons, memberStep_recordMember hfields.settled] at hgather
      cases hname : Stroke.string? entry.1 with
      | none =>
          rw [hname, Option.bind_none, gather_none] at hgather
          cases hgather
      | some name =>
          rw [hname, Option.bind_some] at hgather
          cases hother : fields.find? (·.name == name) with
          | none =>
              rw [hother] at hgather
              exact ih hleft.2 hgather
          | some other =>
              have hmem := List.mem_of_find?_eq_some hother
              have hnames : other.name ≠ field.name := by
                have hfound : other.name = name := by simpa using List.find?_some hother
                rintro hsame
                exact hleft.1 (by rw [hname, ← hfound, hsame])
              simp only [hother] at hgather
              cases hstep : fieldStep depth other gathered entry.2 with
              | none =>
                  rw [hstep, gather_none] at hgather
                  cases hgather
              | some next =>
                  rw [hstep] at hgather
                  have hleaves := ((hfields.apart other hmem field hfield).leaves hnames).1
                  rw [ih hleft.2 hgather]
                  exact hleaves gathered entry.2 next hstep

section Record

variable {start : σ} {finish : σ → Except ReadError α}

/-- A field that is left out counts as a given form. -/
def CountsAs (fields : List (RecordField σ)) (depth : Nat) (start : σ)
    (finish : σ → Except ReadError α) (name : String) (form : Form) : Prop :=
  ∃ field, fields.find? (·.name == name) = some field ∧ field.isRead start = false ∧
    ∀ gathered, field.isRead gathered = false →
      ∃ next, told (field.read depth gathered) form.tokens = some next ∧
        finish next = finish gathered

theorem gather_filled (hfields : Independent fields depth) {entries : List Form.Member}
    {name : List Stroke} {string : String} {value : Form}
    (hname : Stroke.string? name = some string)
    (hcounts : CountsAs fields depth start finish string value)
    (hleft : ∀ entry ∈ entries, Stroke.string? entry.1 ≠ some string) :
    (gather (recordMember fields depth) (some start) ((name, value) :: entries)).bind
        (finish · |>.toOption) =
      (gather (recordMember fields depth) (some start) entries).bind (finish · |>.toOption) := by
  obtain ⟨field, hfield, hunread, hfill⟩ := hcounts
  obtain rfl : field.name = string := by simpa using List.find?_some hfield
  -- The member is read last, so that what is gathered before does not have the field.
  have hlast : gather (recordMember fields depth) (some start) ((name, value) :: entries) =
      (gather (recordMember fields depth) (some start) entries).bind
        (memberStep (recordMember fields depth) · (name, value)) := by
    rw [gather_perm hfields _ (List.perm_append_singleton (name, value) entries).symm, gather,
      List.foldl_append]
    rfl
  rw [hlast]
  cases hgather : gather (recordMember fields depth) (some start) entries with
  | none => rfl
  | some gathered =>
      have hread := isRead_of_gather hfields (List.mem_of_find?_eq_some hfield) hleft hgather
      rw [hunread] at hread
      obtain ⟨next, htold, hfinish⟩ := hfill gathered hread
      rw [Option.bind_some, memberStep_recordMember hfields.settled, hname, Option.bind_some]
      simp only [hfield, fieldStep, hread, htold, Bool.false_eq_true, if_false, Option.bind_some,
        hfinish]

/-- Changes of its members leave a record as it is. -/
theorem told_record_varied (hfields : Independent fields depth) {names : List String}
    (hnames : fields.map (·.name) = names) {defaults : List (String × Form)}
    (hdefaults : ∀ filled ∈ defaults, CountsAs fields depth start finish filled.1 filled.2)
    {entries entries' : List Form.Member} (hvaried : Varied names defaults entries entries') :
    told (record fields start finish (depth + 1)) (Form.object entries).tokens =
      told (record fields start finish (depth + 1)) (Form.object entries').tokens := by
  rw [(reads_record_object hfields.settled entries).told_eq,
    (reads_record_object hfields.settled entries').told_eq]
  cases hvaried with
  | reordered hperm => rw [gather_perm hfields _ hperm]
  | @extended name string value hname hother =>
      have hnone : fields.find? (·.name == string) = none := by
        rw [List.find?_eq_none]
        intro field hfield hsame
        rw [← hnames] at hother
        exact hother (List.mem_map.mpr ⟨field, hfield, by simpa using hsame⟩)
      rw [gather_cons, memberStep_recordMember hfields.settled, hname, Option.bind_some, hnone]
  | filled hname hdefault hleft =>
      rw [gather_filled hfields hname (hdefaults _ hdefault) hleft]

end Record

section Keep

variable {name name' : String} {kept : σ → Option α} {put : σ → α → σ} {kept' : σ → Option β}
  {put' : σ → β → σ} {value : Nat → Reader α} {value' : Nat → Reader β}

theorem told_keep (gathered : σ) (form : Form) :
    told ((RecordField.keep name kept put value).read depth gathered) form.tokens =
      (told (value depth) form.tokens).map (put gathered) := by
  simp only [told, RecordField.keep, found_map, Option.map_map, Function.comp_def]

theorem fieldStep_keep (gathered : σ) (form : Form) :
    fieldStep depth (.keep name kept put value) gathered form =
      if (kept gathered).isSome then none
      else (told (value depth) form.tokens).map (put gathered) := by
  rw [fieldStep, told_keep]
  rfl

theorem settled_keep (hsettled : Settled (value depth)) (gathered : σ) :
    Settled ((RecordField.keep name kept put value).read depth gathered) :=
  hsettled.map (put gathered)

theorem countsAs_keep {start : σ} {γ : Type} {finish : σ → Except ReadError γ} {form : Form}
    {filled : α} (hfield : fields.find? (·.name == name) = some (.keep name kept put value))
    (hstart : kept start = none) (htold : told (value depth) form.tokens = some filled)
    (hfinish : ∀ gathered, kept gathered = none → finish (put gathered filled) = finish gathered) :
    CountsAs fields depth start finish name form := by
  refine ⟨_, hfield, congrArg Option.isSome hstart, fun gathered hunread => ?_⟩
  have hnone : kept gathered = none := by simpa [RecordField.keep] using hunread
  exact ⟨put gathered filled, by rw [told_keep, htold, Option.map_some], hfinish gathered hnone⟩

theorem apart_self (hput : ∀ gathered value, kept (put gathered value) = some value) :
    Apart depth (.keep name kept put value) (.keep name kept put value) := by
  have htwice : ∀ gathered form form',
      (fieldStep depth (.keep name kept put value) gathered form).bind
        (fieldStep depth (.keep name kept put value) · form') = none := by
    intro gathered form form'
    simp only [fieldStep_keep]
    split
    · rfl
    · cases told (value depth) form.tokens with
      | none => rfl
      | some found => simp [hput]
  refine ⟨fun gathered form form' => ?_, fun hnames => absurd rfl hnames⟩
  rw [htwice, htwice]

theorem leaves_keep (hkept : ∀ gathered value, kept' (put gathered value) = kept' gathered) :
    Leaves depth (.keep name kept put value) (.keep name' kept' put' value') := by
  intro gathered form next hstep
  rw [fieldStep_keep] at hstep
  split at hstep
  · cases hstep
  · obtain ⟨found, -, rfl⟩ := Option.map_eq_some_iff.mp hstep
    exact congrArg Option.isSome (hkept gathered found)

theorem apart_keep (hkept : ∀ gathered value, kept' (put gathered value) = kept' gathered)
    (hkept' : ∀ gathered value, kept (put' gathered value) = kept gathered)
    (hput : ∀ gathered value value',
      put' (put gathered value) value' = put (put' gathered value') value) :
    Apart depth (.keep name kept put value) (.keep name' kept' put' value') := by
  refine ⟨?_, fun _ => ⟨leaves_keep hkept, leaves_keep hkept'⟩⟩
  intro gathered form form'
  simp only [fieldStep_keep]
  cases told (value depth) form.tokens with
  | none => cases told (value' depth) form'.tokens <;> simp
  | some found =>
      cases told (value' depth) form'.tokens with
      | none => simp
      | some found' =>
          cases hfirst : kept gathered <;> cases hsecond : kept' gathered <;>
            simp [hfirst, hsecond, hkept, hkept', hput]

end Keep

theorem Apart.symm {x y : RecordField σ} (hapart : Apart depth x y) : Apart depth y x where
  commute gathered form form' := (hapart.commute gathered form' form).symm
  leaves hnames := (hapart.leaves hnames.symm).symm

theorem independent_of_pairwise
    (hsettled : ∀ field ∈ fields, ∀ gathered, Settled (field.read depth gathered))
    (hself : ∀ field ∈ fields, Apart depth field field) (hapart : fields.Pairwise (Apart depth)) :
    Independent fields depth := by
  have : Std.Symm (@Apart σ depth) := ⟨fun _ _ => Apart.symm⟩
  exact ⟨hsettled, fun x hx y hy => hapart.forall_of_forall hself hx hy⟩

end Read

end RoutedSession.Json
