import RoutedSession.Json.Record
import RoutedSession.Proofs.Json.Texts

namespace RoutedSession.Json.Read

/-- What follows does not go on with a number. -/
def Ends (after : Bytes) : Prop :=
  ∀ b ∈ after.head?, isDigit b = false ∧ b ≠ Mark.point ∧ b ≠ Mark.smallE ∧ b ≠ Mark.capitalE

/-- A text is read as a value, whatever comes behind it. -/
structure Writes {α : Type} (reader : Reader α) (text : Bytes) (value : α) : Prop where
  starts : ∃ b rest, text = b :: rest ∧ isSpace b = false ∧ b ≠ Mark.closeArray
  finds : ∀ after, Ends after → Finds reader (text ++ after) value after

theorem ends_cons {b : UInt8} {after : Bytes} (hdigit : isDigit b = false)
    (hmark : b ≠ Mark.point ∧ b ≠ Mark.smallE ∧ b ≠ Mark.capitalE) : Ends (b :: after) := by
  intro b' hb'
  obtain rfl : b = b' := by simpa using hb'
  exact ⟨hdigit, hmark⟩

theorem ends_space {b : UInt8} (hb : isSpace b = true) (after : Bytes) : Ends (b :: after) := by
  have hall : ∀ n < 256, isSpace n.toUInt8 = true → isDigit n.toUInt8 = false ∧
      n.toUInt8 ≠ Mark.point ∧ n.toUInt8 ≠ Mark.smallE ∧ n.toUInt8 ≠ Mark.capitalE := by
    decide +kernel
  have hbyte := hall b.toNat b.toNat_lt
  rw [show b.toNat.toUInt8 = b from UInt8.ofNat_toNat] at hbyte
  exact ends_cons (hbyte hb).1 (hbyte hb).2

theorem finds_next_of_skipSpace {bytes after : Bytes} {b : UInt8}
    (hskip : skipSpace bytes = b :: after) : Finds next bytes b after := by
  have hfirst : ∃ rest : Rest bytes, first? bytes = some (b, rest) ∧ rest.val = after := by
    unfold first?
    split
    · rename_i hnone
      rw [hskip] at hnone
      nomatch hnone
    · rename_i b' after' hsome
      rw [hskip] at hsome
      obtain ⟨rfl, rfl⟩ := List.cons.inj hsome
      exact ⟨_, rfl, rfl⟩
  obtain ⟨rest, hfound, hrest⟩ := hfirst
  exact ⟨rest, by rw [next, hfound], hrest⟩

theorem finds_next {b : UInt8} (hb : isSpace b = false) (after : Bytes) :
    Finds next (b :: after) b after :=
  finds_next_of_skipSpace (List.dropWhile_cons_of_neg (by simp [hb]))

theorem finds_afterColon {α : Type} {reader : Reader α} {bytes : Bytes} {value : α} {after : Bytes}
    (hvalue : Finds reader bytes value after) :
    Finds (afterColon reader) (Mark.colon :: bytes) value after := by
  obtain ⟨rest, hnext, hrest⟩ := finds_next (show isSpace Mark.colon = false by decide) bytes
  rw [← hrest] at hvalue
  obtain ⟨last, hread, hlast⟩ := hvalue
  refine ⟨rest.andThen last, ?_, hlast⟩
  simp only [afterColon, hnext, hread, bind, Except.bind, pure, Except.pure, if_true]

/-- Parts with a comma in front of each, apart from the first of all. -/
def led : (isFirst : Bool) → List Bytes → Bytes
  | _, [] => []
  | true, part :: rest => part ++ led false rest
  | false, part :: rest => Mark.comma :: (part ++ led false rest)

theorem separate_eq_led (parts : List Bytes) : separate parts = led true parts := by
  induction parts with
  | nil => rfl
  | cons part rest ih =>
      cases rest with
      | nil => simp [separate, led]
      | cons next rest =>
          rw [separate, ih, led, led, led]
          nofun

/-- What comes next in an array or object is an item that begins at some bytes. -/
def FindsItem {bytes : Bytes} (found : Except ReadError (Next bytes)) (start : Bytes) : Prop :=
  ∃ rest, found = .ok (.item rest) ∧ rest.val = start

/-- What comes next in an array or object is its end. -/
def FindsEnd {bytes : Bytes} (found : Except ReadError (Next bytes)) (after : Bytes) : Prop :=
  ∃ rest, found = .ok (.close rest) ∧ rest.val = after

section Next

variable {bytes mid after : Bytes} {b : UInt8}

theorem findsEnd_nextItem (isFirst : Bool) (hclose : Finds next bytes Mark.closeArray after) :
    FindsEnd (nextItem isFirst bytes) after := by
  obtain ⟨rest, hnext, hrest⟩ := hclose
  exact ⟨rest, by simp only [nextItem, hnext, bind, Except.bind, if_true]; rfl, hrest⟩

theorem findsItem_first (hitem : Finds next bytes b after) (hclose : b ≠ Mark.closeArray) :
    FindsItem (nextItem true bytes) (b :: after) := by
  obtain ⟨rest, hnext, hrest⟩ := hitem
  refine ⟨⟨b :: rest.val, rest.property⟩, ?_, congrArg (b :: ·) hrest⟩
  simp only [nextItem, hnext, bind, Except.bind, if_neg hclose, if_true]
  rfl

theorem findsItem_later (hcomma : Finds next bytes Mark.comma mid) (hitem : Finds next mid b after)
    (hclose : b ≠ Mark.closeArray) : FindsItem (nextItem false bytes) (b :: after) := by
  obtain ⟨rest, hnext, rfl⟩ := hcomma
  obtain ⟨last, hnext', hlast⟩ := hitem
  have hcomma : Mark.comma ≠ Mark.closeArray := by decide
  have hshort := Nat.lt_of_le_of_lt last.property rest.property
  refine ⟨⟨b :: last.val, Nat.le_of_lt hshort⟩, ?_, congrArg (b :: ·) hlast⟩
  simp only [nextItem, hnext, hnext', bind, Except.bind, if_neg hclose, if_neg hcomma, if_true,
    Bool.false_eq_true, if_false]
  rfl

theorem findsEnd_nextName (isFirst : Bool) (hclose : Finds next bytes Mark.closeObject after) :
    FindsEnd (nextName isFirst bytes) after := by
  obtain ⟨rest, hnext, hrest⟩ := hclose
  exact ⟨rest, by simp only [nextName, hnext, bind, Except.bind, if_true]; rfl, hrest⟩

theorem findsName_first (hquote : Finds next bytes Mark.quote after) :
    FindsItem (nextName true bytes) after := by
  obtain ⟨rest, hnext, hrest⟩ := hquote
  have hclose : Mark.quote ≠ Mark.closeObject := by decide
  refine ⟨⟨rest.val, Nat.le_of_lt rest.property⟩, ?_, hrest⟩
  simp only [nextName, hnext, bind, Except.bind, if_neg hclose, if_true]
  rfl

theorem findsName_later (hcomma : Finds next bytes Mark.comma mid)
    (hquote : Finds next mid Mark.quote after) : FindsItem (nextName false bytes) after := by
  obtain ⟨rest, hnext, rfl⟩ := hcomma
  obtain ⟨last, hnext', hlast⟩ := hquote
  have hclose : Mark.comma ≠ Mark.closeObject := by decide
  have hshort := Nat.lt_trans last.property rest.property
  refine ⟨⟨last.val, Nat.le_of_lt hshort⟩, ?_, hlast⟩
  simp only [nextName, hnext, hnext', bind, Except.bind, if_neg hclose, if_true,
    Bool.false_eq_true, if_false]
  rfl

end Next

theorem ends_close (after : Bytes) :
    Ends (Mark.closeArray :: after) ∧ Ends (Mark.closeObject :: after) :=
  ⟨ends_cons (by decide) (by decide), ends_cons (by decide) (by decide)⟩

theorem ends_led {parts : List Bytes} {after : Bytes} (hafter : Ends after) :
    Ends (led false parts ++ after) := by
  cases parts with
  | nil => exact hafter
  | cons part parts => exact ends_cons (by decide) (by decide)

theorem orderedFields_cons {σ : Type} (depth : Nat) (outer : Bytes) (field : RecordField σ)
    (later : List (RecordField σ)) (isFirst : Bool) (gathered : σ) (bytes : Bytes)
    (hwithin : bytes.length ≤ outer.length) :
    orderedFields depth outer (field :: later) isFirst gathered bytes hwithin =
      match nextItem isFirst bytes with
      | .error e => .error e
      | .ok (.close rest) => .ok (gathered, rest.widen hwithin)
      | .ok (.item start) =>
          match field.read depth gathered start.val with
          | .error e => .error e
          | .ok (gathered, rest) =>
              orderedFields depth outer later false gathered rest.val
                (Nat.le_trans (Nat.le_of_lt rest.property) (Nat.le_trans start.property hwithin)) :=
  rfl

theorem orderedFields_nil {σ : Type} (depth : Nat) (outer : Bytes) (isFirst : Bool) (gathered : σ)
    (bytes : Bytes) (hwithin : bytes.length ≤ outer.length) :
    orderedFields depth outer [] isFirst gathered bytes hwithin =
      match closeArray bytes with
      | .error e => .error e
      | .ok rest => .ok (gathered, rest.widen hwithin) :=
  rfl

theorem items_led {α : Type} {item : Reader α} {parts : List (Bytes × α)}
    (hparts : ∀ part ∈ parts, Writes item part.1 part.2) (outer : Bytes) (taken : List α)
    (bytes : Bytes) (hwithin : bytes.length ≤ outer.length) (after : Bytes)
    (hbytes : bytes = led taken.isEmpty (parts.map (·.1)) ++ Mark.closeArray :: after) :
    ∃ rest : Rest outer,
      items item outer taken bytes hwithin = .ok (taken.reverse ++ parts.map (·.2), rest) ∧
        rest.val = after := by
  induction parts generalizing taken bytes with
  | nil =>
      obtain rfl : bytes = Mark.closeArray :: after := by simpa [led] using hbytes
      obtain ⟨rest, hnext, hrest⟩ := findsEnd_nextItem taken.isEmpty (finds_next (by decide) after)
      rw [items]
      simp only [hnext]
      exact ⟨_, by rw [List.map_nil, List.append_nil], hrest⟩
  | cons part parts ih =>
      obtain ⟨text, value⟩ := part
      rw [List.forall_mem_cons] at hparts
      obtain ⟨b, tail, htext, hspace, hclose⟩ := hparts.1.starts
      have hitem : FindsItem (nextItem taken.isEmpty bytes)
          (text ++ (led false (parts.map (·.1)) ++ Mark.closeArray :: after)) := by
        dsimp only at htext
        subst htext
        cases hfirst : taken.isEmpty with
        | true =>
            rw [hfirst] at hbytes
            obtain rfl : bytes = b :: (tail ++ (led false (parts.map (·.1)) ++
                Mark.closeArray :: after)) := by simpa [led] using hbytes
            exact findsItem_first (finds_next hspace _) hclose
        | false =>
            rw [hfirst] at hbytes
            obtain rfl : bytes = Mark.comma :: b :: (tail ++ (led false (parts.map (·.1)) ++
                Mark.closeArray :: after)) := by simpa [led] using hbytes
            exact findsItem_later (finds_next (by decide) _) (finds_next hspace _) hclose
      obtain ⟨start, hnext, hstart⟩ := hitem
      have hends : Ends (led false (parts.map (·.1)) ++ Mark.closeArray :: after) :=
        ends_led (ends_close after).1
      have hvalue := hparts.1.finds _ hends
      dsimp only at hvalue
      rw [← hstart] at hvalue
      obtain ⟨rest, hread, hrest⟩ := hvalue
      rw [items]
      simp only [hnext, hread]
      obtain ⟨last, hitems, hlast⟩ := ih hparts.2 (value :: taken) rest.val _ hrest
      exact ⟨last, by rw [hitems, List.reverse_cons, List.append_assoc]; rfl, hlast⟩

/-- What a reader of members gathers from names and written values, one after the other. -/
inductive Gathers {σ : Type} (member : σ → String → Reader σ) :
    σ → List (String × Bytes) → σ → Prop where
  | nil {gathered : σ} : Gathers member gathered [] gathered
  | cons {gathered next last : σ} {name : String} {text : Bytes} {rest : List (String × Bytes)}
      (hmember : ∀ after, Ends after →
        Finds (member gathered name) (Mark.colon :: (text ++ after)) next after)
      (hrest : Gathers member next rest last) : Gathers member gathered ((name, text) :: rest) last

/-- The written members of an object. -/
def written (entries : List (String × Bytes)) : List Bytes :=
  entries.map fun entry => printMember entry.1 entry.2

theorem members_led {σ : Type} {member : σ → String → Reader σ} {start last : σ}
    {entries : List (String × Bytes)} (hentries : Gathers member start entries last)
    (outer : Bytes) (isFirst : Bool) (bytes : Bytes) (hwithin : bytes.length ≤ outer.length)
    (after : Bytes) (hbytes : bytes = led isFirst (written entries) ++ Mark.closeObject :: after) :
    ∃ rest : Rest outer,
      members member outer isFirst start bytes hwithin = .ok (last, rest) ∧ rest.val = after := by
  induction hentries generalizing isFirst bytes with
  | nil =>
      obtain rfl : bytes = Mark.closeObject :: after := by simpa [led, written] using hbytes
      obtain ⟨rest, hnext, hrest⟩ := findsEnd_nextName isFirst (finds_next (by decide) after)
      rw [members]
      simp only [hnext]
      exact ⟨_, rfl, hrest⟩
  | @cons gathered next last name text entries hmember _ ih =>
      -- Every name but the first is behind a comma.
      have hname : FindsItem (nextName isFirst bytes)
          ((Bytes.ofString name).flatMap escapeByte ++ Mark.quote :: (Mark.colon ::
            (text ++ (led false (written entries) ++ Mark.closeObject :: after)))) := by
        cases isFirst with
        | true =>
            obtain rfl : bytes = Mark.quote :: ((Bytes.ofString name).flatMap escapeByte ++
                Mark.quote :: (Mark.colon ::
                  (text ++ (led false (written entries) ++ Mark.closeObject :: after)))) := by
              simpa [led, written, printMember, printText] using hbytes
            exact findsName_first (finds_next (by decide) _)
        | false =>
            obtain rfl : bytes = Mark.comma :: Mark.quote ::
                ((Bytes.ofString name).flatMap escapeByte ++ Mark.quote :: (Mark.colon ::
                  (text ++ (led false (written entries) ++ Mark.closeObject :: after)))) := by
              simpa [led, written, printMember, printText] using hbytes
            exact findsName_later (finds_next (by decide) _) (finds_next (by decide) _)
      obtain ⟨begun, hnext, hbegun⟩ := hname
      have htext := finds_text name
        (Mark.colon :: (text ++ (led false (written entries) ++ Mark.closeObject :: after)))
      rw [← hbegun] at htext
      obtain ⟨colon, hread, hcolon⟩ := htext
      have hvalue := hmember (led false (written entries) ++ Mark.closeObject :: after)
        (ends_led (ends_close after).2)
      rw [← hcolon] at hvalue
      obtain ⟨rest, hfound, hrest⟩ := hvalue
      rw [members]
      simp only [hnext, hread, hfound]
      exact ih false rest.val _ hrest

end RoutedSession.Json.Read
