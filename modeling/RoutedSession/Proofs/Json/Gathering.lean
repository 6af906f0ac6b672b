import RoutedSession.Proofs.Json.Skipping

namespace RoutedSession.Json.Read

variable {α β σ : Type}

/-- A reader makes one thing of each form. -/
def Settled (reader : Reader α) : Prop :=
  ∀ form : Form, Reads reader form.tokens (told reader form.tokens)

theorem reads_none {reader : Reader α} {form : Form}
    (hother : ∀ {bytes : Bytes} {rest : Rest bytes}, next bytes = .ok (form.first, rest) →
      found (reader bytes) = none) : Reads reader form.tokens none := by
  intro bytes after hspaced _
  obtain ⟨tail, more, htokens, hspace, -⟩ := form.exists_tokens
  rw [htokens] at hspaced
  obtain ⟨_, _, rest, hnext, -⟩ := finds_next_of_spaced hspaced hspace
  exact hother hnext

theorem found_map {bytes : Bytes} (f : α → β) (result : Except ReadError (α × Rest bytes)) :
    found (result.map fun (value, rest) => (f value, rest)) =
      (found result).map fun (value, after) => (f value, after) := by
  cases result <;> rfl

theorem Reads.map {reader : Reader α} {tokens : List Bytes} {value? : Option α} (f : α → β)
    (hreads : Reads reader tokens value?) :
    Reads (fun bytes => (reader bytes).map fun (value, rest) => (f value, rest)) tokens
      (value?.map f) := by
  intro bytes after hspaced hafter
  rw [found_map, hreads bytes after hspaced hafter, Option.map_map, Option.map_map]
  rfl

theorem Settled.map {reader : Reader α} (f : α → β) (hsettled : Settled reader) :
    Settled fun bytes => (reader bytes).map fun (value, rest) => (f value, rest) :=
  fun form => ((hsettled form).map f).told

theorem reads_text (strokes : List Stroke) :
    Reads quoted (Form.text strokes).tokens (Stroke.string? strokes) := by
  intro bytes after hspaced _
  obtain ⟨mid, hmid, rest, hnext, hrest⟩ := finds_next_of_spaced hspaced (by decide)
  cases hmid
  have hread := found_text strokes after
  rw [← hrest] at hread
  simp only [quoted, hnext, bind, Except.bind, if_true]
  rw [← hread]
  cases text rest.val <;> rfl

theorem settled_quoted : Settled quoted := by
  intro form
  have hother : form.first ≠ Mark.quote → Reads quoted form.tokens none := by
    intro hfirst
    refine reads_none fun hnext => ?_
    simp only [quoted, hnext, bind, Except.bind, if_neg hfirst]
    rfl
  cases form with
  | text strokes => exact (reads_text strokes).told
  | null | array _ | object _ => exact (hother (by rw [Form.first]; decide)).told
  | bool b => cases b <;> exact (hother (by rw [Form.first]; decide)).told
  | number written => exact (hother (Form.first_number_ne written (by decide))).told

def naturalOf? (bound : Nat) : JsonNumber → Option Nat
  | .int value => if 0 ≤ value ∧ value < bound then some value.toNat else none
  | .float _ => none

theorem reads_number (bound : Nat) (written : WrittenNumber) :
    Reads (naturalBelow bound) (Form.number written).tokens
      ((written.numeral.value written.isNegative).toOption.bind (naturalOf? bound)) := by
  intro bytes after hspaced hafter
  obtain ⟨b, tail, hbytes, hstarts⟩ := written.exists_bytes
  rw [Form.tokens, hbytes] at hspaced
  obtain ⟨mid, hmid, rest, hnext, hrest⟩ :=
    finds_next_of_spaced hspaced (startsNumber_ne hstarts).1
  cases hmid
  have hread := found_number written hafter hbytes
  rw [← hrest] at hread
  simp only [naturalBelow, hnext, bind, Except.bind, hstarts, if_true]
  cases hvalue : written.numeral.value written.isNegative with
  | error e =>
      rw [hvalue] at hread
      obtain ⟨e, herror⟩ := found_eq_none_iff.mp hread
      rw [herror]
      rfl
  | ok value =>
      rw [hvalue] at hread
      obtain ⟨behind, hok, hbehind⟩ := found_eq_some_iff.mp hread
      rw [hok]
      cases value with
      | float value => rfl
      | int value =>
          simp only [Except.toOption, Option.bind_some, naturalOf?]
          split
          · exact congrArg (fun after => some (value.toNat, after)) hbehind
          · rfl

theorem settled_naturalBelow (bound : Nat) : Settled (naturalBelow bound) := by
  intro form
  have hother : startsNumber form.first = false → Reads (naturalBelow bound) form.tokens none := by
    intro hfirst
    refine reads_none fun hnext => ?_
    simp only [naturalBelow, hnext, bind, Except.bind, hfirst, Bool.false_eq_true, if_false]
    rfl
  cases form with
  | number written => exact (reads_number bound written).told
  | null | array _ | object _ | text _ => exact (hother (by rw [Form.first]; decide)).told
  | bool b => cases b <;> exact (hother (by rw [Form.first]; decide)).told

/-- What one member makes of what has been gathered before. -/
def memberStep (member : σ → String → Reader σ) (gathered : σ) (entry : Form.Member) : Option σ :=
  (Stroke.string? entry.1).bind fun name =>
    told (member gathered name) ([Mark.colon] :: entry.2.tokens)

/-- What members make of what has been gathered before, one after the other. -/
def gather (member : σ → String → Reader σ) (gathered? : Option σ) (entries : List Form.Member) :
    Option σ :=
  entries.foldl (fun gathered? entry => gathered?.bind (memberStep member · entry)) gathered?

/-- What a member makes of what has been gathered is decided by its name and form. -/
def MembersSettled (member : σ → String → Reader σ) : Prop :=
  ∀ gathered name (form : Form), Reads (member gathered name) ([Mark.colon] :: form.tokens)
    (told (member gathered name) ([Mark.colon] :: form.tokens))

variable {member : σ → String → Reader σ}

theorem gather_none (entries : List Form.Member) : gather member none entries = none := by
  induction entries with
  | nil => rfl
  | cons entry entries ih => exact ih

theorem gather_cons (gathered : σ) (entry : Form.Member) (entries : List Form.Member) :
    gather member (some gathered) (entry :: entries) =
      gather member (memberStep member gathered entry) entries :=
  rfl

theorem findsName_of_spaced {isFirst : Bool} {name : List Stroke} {more : List Bytes}
    {bytes after : Bytes}
    (hspaced : Spaced (Form.lead isFirst ++ (Mark.quote :: Stroke.closed name) :: more) bytes
      after) :
    ∃ mid, Spaced more mid after ∧
      FindsItem (nextName isFirst bytes) (Stroke.closed name ++ mid) := by
  cases isFirst with
  | true =>
      obtain ⟨mid, hmid, hquote⟩ := finds_next_of_spaced hspaced (by decide)
      exact ⟨mid, hmid, findsName_first hquote⟩
  | false =>
      obtain ⟨begun, hbegun, hcomma⟩ := finds_next_of_spaced hspaced (by decide)
      obtain ⟨mid, hmid, hquote⟩ := finds_next_of_spaced hbegun (by decide)
      exact ⟨mid, hmid, findsName_later hcomma hquote⟩

theorem found_members (hsettled : MembersSettled member) (entries : List Form.Member)
    (outer : Bytes) {isFirst : Bool} {gathered : σ} {bytes after : Bytes}
    (hwithin : bytes.length ≤ outer.length)
    (hspaced : Spaced (Form.membersTokens isFirst entries) bytes after) :
    found (members member outer isFirst gathered bytes hwithin) =
      (gather member (some gathered) entries).map (·, after) := by
  induction entries generalizing isFirst gathered bytes with
  | nil =>
      obtain ⟨mid, hmid, hclose⟩ := finds_next_of_spaced hspaced (by decide)
      cases hmid
      obtain ⟨rest, hnext, hrest⟩ := findsEnd_nextName isFirst hclose
      rw [members]
      simp only [hnext]
      exact congrArg (fun after => some (gathered, after)) hrest
  | cons entry entries ih =>
      obtain ⟨name, value⟩ := entry
      obtain ⟨mid, hmid, start, hnext, hstart⟩ := findsName_of_spaced hspaced
      have htext := found_text name mid
      rw [← hstart] at htext
      rw [gather_cons, memberStep, members]
      simp only [hnext]
      cases hname : Stroke.string? name with
      | none =>
          rw [hname] at htext
          obtain ⟨e, herror⟩ := found_eq_none_iff.mp htext
          rw [herror, Option.bind_none, gather_none]
          rfl
      | some name =>
          rw [hname] at htext
          obtain ⟨colon, hread, hcolon⟩ := found_eq_some_iff.mp htext
          rw [hread, Option.bind_some]
          rw [← hcolon, ← List.cons_append] at hmid
          obtain ⟨behind, hvalue, hmembers⟩ := hmid.of_append
          have hmember := hsettled gathered name value _ _ hvalue (ends_members hmembers)
          dsimp only
          cases htold : told (member gathered name) ([Mark.colon] :: value.tokens) with
          | none =>
              rw [htold] at hmember
              obtain ⟨e, herror⟩ := found_eq_none_iff.mp hmember
              rw [herror, gather_none]
              rfl
          | some gathered =>
              rw [htold] at hmember
              obtain ⟨rest, hok, hrest⟩ := found_eq_some_iff.mp hmember
              rw [hok]
              rw [← hrest] at hmembers
              exact ih _ hmembers

theorem Reads.afterColon {reader : Reader α} {tokens : List Bytes} {value? : Option α}
    (hreads : Reads reader tokens value?) :
    Reads (afterColon reader) ([Mark.colon] :: tokens) value? := by
  intro bytes after hspaced hafter
  obtain ⟨rest, hnext, hrest⟩ := next_mark hspaced (by decide)
  rw [← hreads _ _ hrest hafter]
  simp only [Read.afterColon, hnext, bind, Except.bind, if_true]
  cases reader rest.val <;> rfl

theorem reads_keptMember {reader : Reader α} (hsettled : Settled reader)
    (gathered : List (String × α)) (name : String) (form : Form) :
    Reads (keptMember reader gathered name) ([Mark.colon] :: form.tokens)
      ((told reader form.tokens).map (insertSorted name · gathered)) :=
  (hsettled form).afterColon.map (insertSorted name · gathered)

theorem membersSettled_keptMember {reader : Reader α} (hsettled : Settled reader) :
    MembersSettled (keptMember reader) :=
  fun gathered name form => (reads_keptMember hsettled gathered name form).told

theorem found_object {entries : List Form.Member} {bytes after : Bytes}
    (hsettled : MembersSettled member) (gathered : σ)
    (hspaced : Spaced (Form.object entries).tokens bytes after) :
    ∃ rest : Rest bytes, next bytes = .ok (Mark.openObject, rest) ∧
      found (members member rest.val true gathered rest.val rest.le_self) =
        (gather member (some gathered) entries).map (·, after) := by
  obtain ⟨rest, hnext, hrest⟩ := next_mark hspaced (by decide)
  exact ⟨rest, hnext, found_members hsettled entries _ _ hrest⟩

theorem reads_map_object {reader : Nat → Reader α} {depth : Nat}
    (hsettled : Settled (reader depth)) (entries : List Form.Member) :
    Reads (map (depth + 1) reader) (Form.object entries).tokens
      (gather (keptMember (reader depth)) (some []) entries) := by
  intro bytes after hspaced _
  obtain ⟨rest, hnext, hmembers⟩ := found_object (membersSettled_keptMember hsettled) [] hspaced
  rw [← hmembers]
  simp only [Read.map, hnext, bind, Except.bind, if_true]
  cases members (keptMember (reader depth)) rest.val true [] rest.val rest.le_self <;> rfl

theorem settled_map {reader : Nat → Reader α} {depth : Nat} (hsettled : Settled (reader depth)) :
    Settled (map (depth + 1) reader) := by
  intro form
  have hother : form.first ≠ Mark.openObject → Reads (map (depth + 1) reader) form.tokens none := by
    intro hfirst
    refine reads_none fun hnext => ?_
    simp only [Read.map, hnext, bind, Except.bind, if_neg hfirst]
    rfl
  cases form with
  | object entries => exact (reads_map_object hsettled entries).told
  | null | array _ | text _ => exact (hother (by rw [Form.first]; decide)).told
  | bool b => cases b <;> exact (hother (by rw [Form.first]; decide)).told
  | number written => exact (hother (Form.first_number_ne written (by decide))).told

/-- What the field of a record makes of what has been gathered, if it has not been read before. -/
def fieldStep (depth : Nat) (field : RecordField σ) (gathered : σ) (form : Form) : Option σ :=
  if field.isRead gathered then none else told (field.read depth gathered) form.tokens

theorem reads_recordMember {fields : List (RecordField σ)} {depth : Nat}
    (hsettled : ∀ field ∈ fields, ∀ gathered, Settled (field.read depth gathered))
    (gathered : σ) (name : String) (form : Form) :
    Reads (recordMember fields depth gathered name) ([Mark.colon] :: form.tokens)
      (match fields.find? (·.name == name) with
      | none => some gathered
      | some field => fieldStep depth field gathered form) := by
  cases hfield : fields.find? (·.name == name) with
  | none =>
      have hskip := (reads_skipValue form).afterColon.map fun () => gathered
      intro bytes after hspaced hafter
      simp only [recordMember, hfield]
      exact hskip _ _ hspaced hafter
  | some field =>
      have hread := (hsettled field (List.mem_of_find?_eq_some hfield) gathered form).afterColon
      intro bytes after hspaced hafter
      simp only [recordMember, hfield, fieldStep]
      split
      · rfl
      · exact hread _ _ hspaced hafter

theorem membersSettled_recordMember {fields : List (RecordField σ)} {depth : Nat}
    (hsettled : ∀ field ∈ fields, ∀ gathered, Settled (field.read depth gathered)) :
    MembersSettled (recordMember fields depth) :=
  fun gathered name form => (reads_recordMember hsettled gathered name form).told

/-- What the items of an array make of what has been gathered, each read by the field in its
place. -/
def gatherItems (depth : Nat) : List (RecordField σ) → List Form → σ → Option σ
  | _, [], gathered => some gathered
  | [], _ :: _, _ => none
  | field :: fields, item :: items, gathered =>
      (told (field.read depth gathered) item.tokens).bind (gatherItems depth fields items)

theorem findsItem_of_spaced {isFirst : Bool} {item : Form} {more : List Bytes}
    {bytes after : Bytes}
    (hspaced : Spaced (Form.lead isFirst ++ (item.tokens ++ more)) bytes after) :
    (∃ b rest, next bytes = .ok (b, rest) ∧ b ≠ Mark.closeArray) ∧
      ∃ start, Spaced (item.tokens ++ more) start after ∧
        FindsItem (nextItem isFirst bytes) start := by
  obtain ⟨tail, more', htokens, hspace, hclose⟩ := item.exists_tokens
  rw [htokens, List.cons_append] at hspaced ⊢
  cases isFirst with
  | true =>
      obtain ⟨rest, hnext, hrest⟩ := next_token hspaced hspace
      exact ⟨⟨_, rest, hnext, hclose⟩, _, hrest, findsItem_first ⟨rest, hnext, rfl⟩ hclose⟩
  | false =>
      obtain ⟨rest, hcomma, hrest⟩ := next_mark hspaced (by decide)
      obtain ⟨last, hnext, hlast⟩ := next_token hrest hspace
      exact ⟨⟨_, rest, hcomma, by decide⟩, _, hlast,
        findsItem_later ⟨rest, hcomma, rfl⟩ ⟨last, hnext, rfl⟩ hclose⟩

theorem found_orderedFields {depth : Nat} (fields : List (RecordField σ))
    (hsettled : ∀ field ∈ fields, ∀ gathered, Settled (field.read depth gathered))
    (items : List Form) (outer : Bytes) {isFirst : Bool} {gathered : σ} {bytes after : Bytes}
    (hwithin : bytes.length ≤ outer.length)
    (hspaced : Spaced (Form.itemsTokens isFirst items) bytes after) :
    found (orderedFields depth outer fields isFirst gathered bytes hwithin) =
      (gatherItems depth fields items gathered).map (·, after) := by
  induction fields generalizing items isFirst gathered bytes with
  | nil =>
      rw [orderedFields_nil]
      cases items with
      | nil =>
          obtain ⟨rest, hnext, hrest⟩ := next_mark hspaced (by decide)
          cases hrest
          simp only [closeArray, hnext, bind, Except.bind, if_true]
          rfl
      | cons item items =>
          obtain ⟨⟨b, rest, hnext, hclose⟩, -⟩ := findsItem_of_spaced hspaced
          simp only [closeArray, hnext, bind, Except.bind, if_neg hclose]
          rfl
  | cons field fields ih =>
      rw [List.forall_mem_cons] at hsettled
      cases items with
      | nil =>
          obtain ⟨mid, hmid, hclose⟩ := finds_next_of_spaced hspaced (by decide)
          cases hmid
          obtain ⟨rest, hnext, hrest⟩ := findsEnd_nextItem isFirst hclose
          rw [orderedFields_cons]
          simp only [hnext]
          exact congrArg (fun after => some (gathered, after)) hrest
      | cons item items =>
          obtain ⟨-, start, hstart, begun, hnext, hbegun⟩ := findsItem_of_spaced hspaced
          rw [← hbegun] at hstart
          obtain ⟨mid, hitem, hitems⟩ := hstart.of_append
          have hread := hsettled.1 gathered item _ _ hitem (ends_items hitems)
          rw [orderedFields_cons, gatherItems]
          simp only [hnext]
          cases htold : told (field.read depth gathered) item.tokens with
          | none =>
              rw [htold] at hread
              obtain ⟨e, herror⟩ := found_eq_none_iff.mp hread
              rw [herror]
              rfl
          | some gathered =>
              rw [htold] at hread
              obtain ⟨rest, hok, hrest⟩ := found_eq_some_iff.mp hread
              rw [hok]
              rw [← hrest] at hitems
              exact ih hsettled.2 items _ hitems

variable {fields : List (RecordField σ)} {start : σ} {finish : σ → Except ReadError α} {depth : Nat}

theorem found_judged {outer : Bytes} {rest : Rest outer} {gathered? : Option σ} {after : Bytes}
    {result : Except ReadError (σ × Rest rest.val)}
    (hresult : found result = gathered?.map (·, after)) :
    found (do
      let (gathered, behind) ← result
      let value ← finish gathered
      return (value, rest.andThen behind)) =
        (gathered?.bind (finish · |>.toOption)).map (·, after) := by
  cases gathered? with
  | none =>
      obtain ⟨e, herror⟩ := found_eq_none_iff.mp hresult
      rw [herror]
      rfl
  | some gathered =>
      obtain ⟨behind, hok, hbehind⟩ := found_eq_some_iff.mp hresult
      rw [hok, Option.bind_some]
      simp only [bind, Except.bind]
      cases finish gathered with
      | error e => rfl
      | ok value => exact congrArg (fun after => some (value, after)) hbehind

theorem reads_record_object
    (hsettled : ∀ field ∈ fields, ∀ gathered, Settled (field.read depth gathered))
    (entries : List Form.Member) :
    Reads (record fields start finish (depth + 1)) (Form.object entries).tokens
      ((gather (recordMember fields depth) (some start) entries).bind (finish · |>.toOption)) := by
  intro bytes after hspaced _
  obtain ⟨rest, hnext, hmembers⟩ :=
    found_object (membersSettled_recordMember hsettled) start hspaced
  rw [← found_judged hmembers]
  simp only [record, hnext, bind, Except.bind]
  rw [if_neg (by decide), if_true]

theorem reads_record_array
    (hsettled : ∀ field ∈ fields, ∀ gathered, Settled (field.read depth gathered))
    (items : List Form) :
    Reads (record fields start finish (depth + 1)) (Form.array items).tokens
      ((gatherItems depth fields items start).bind (finish · |>.toOption)) := by
  intro bytes after hspaced _
  obtain ⟨rest, hnext, hrest⟩ := next_mark hspaced (by decide)
  rw [← found_judged (found_orderedFields fields hsettled items _ rest.le_self hrest)]
  simp only [record, hnext, bind, Except.bind]
  rw [if_true]

theorem settled_record
    (hsettled : ∀ field ∈ fields, ∀ gathered, Settled (field.read depth gathered)) :
    Settled (record fields start finish (depth + 1)) := by
  intro form
  have hother : form.first ≠ Mark.openArray → form.first ≠ Mark.openObject →
      Reads (record fields start finish (depth + 1)) form.tokens none := by
    intro harray hobject
    refine reads_none fun hnext => ?_
    simp only [record, hnext, bind, Except.bind, if_neg harray, if_neg hobject]
    rfl
  cases form with
  | object entries => exact (reads_record_object hsettled entries).told
  | array items => exact (reads_record_array hsettled items).told
  | null | text _ => exact (hother (by rw [Form.first]; decide) (by rw [Form.first]; decide)).told
  | bool b =>
      cases b <;> exact (hother (by rw [Form.first]; decide) (by rw [Form.first]; decide)).told
  | number written =>
      exact (hother (Form.first_number_ne written (by decide))
        (Form.first_number_ne written (by decide))).told

theorem whole_of_spells {reader : Reader α} {form : Form} {text : Bytes}
    (hsettled : Settled reader) (hform : form.Spells text) :
    (whole reader text).toOption = told reader form.tokens := by
  obtain ⟨after, hspaced, hspaces⟩ := hform
  have hends : Ends after := by
    cases after with
    | nil => exact nofun
    | cons b after => exact ends_space (hspaces b List.mem_cons_self) after
  have hread := hsettled form _ _ hspaced hends
  cases htold : told reader form.tokens with
  | none =>
      rw [htold] at hread
      obtain ⟨e, herror⟩ := found_eq_none_iff.mp hread
      simp only [whole, herror, bind, Except.bind]
      rfl
  | some value =>
      rw [htold] at hread
      obtain ⟨rest, hok, hrest⟩ := found_eq_some_iff.mp hread
      have hnone : first? rest.val = none := by
        rw [hrest]
        exact first?_eq_none_iff.mpr hspaces
      simp only [whole, hok, hnone, bind, Except.bind]
      rfl

end RoutedSession.Json.Read
