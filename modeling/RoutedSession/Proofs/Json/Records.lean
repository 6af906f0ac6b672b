import RoutedSession.Proofs.Json.Values

namespace RoutedSession.Json.Read

variable {σ α : Type}

theorem finds_recordMember {fields : List (RecordField σ)} {field : RecordField σ} {depth : Nat}
    {gathered next : σ} {name : String} {text : Bytes}
    (hfield : fields.find? (·.name == name) = some field) (hnew : field.isRead gathered = false)
    (hvalue : Writes (field.read depth gathered) text next) (after : Bytes) (hafter : Ends after) :
    Finds (recordMember fields depth gathered name) (Mark.colon :: (text ++ after)) next after := by
  obtain ⟨behind, hread, hbehind⟩ := finds_afterColon (hvalue.finds after hafter)
  refine ⟨behind, ?_, hbehind⟩
  rw [recordMember, hfield, ← hread]
  simp only [hnew, Bool.false_eq_true, if_false]

theorem writes_map {β : Type} {reader : Reader α} {text : Bytes} {value : α} {f : α → β}
    (hvalue : Writes reader text value) :
    Writes (fun bytes => (reader bytes).map fun found => (f found.1, found.2)) text (f value) where
  starts := hvalue.starts
  finds := by
    intro after hafter
    obtain ⟨rest, hread, hrest⟩ := hvalue.finds after hafter
    exact ⟨rest, by simp only [hread, Except.map], hrest⟩

theorem writes_keep {name : String} {kept : σ → Option α} {put : σ → α → σ}
    {reader : Nat → Reader α} {depth : Nat} {gathered : σ} {text : Bytes} {value : α}
    (hvalue : Writes (reader depth) text value) :
    Writes ((RecordField.keep name kept put reader).read depth gathered) text
      (put gathered value) :=
  writes_map hvalue

theorem writes_record {fields : List (RecordField σ)} {start last : σ}
    {finish : σ → Except ReadError α} {depth : Nat} {entries : List (String × Bytes)} {value : α}
    (hentries : Gathers (recordMember fields depth) start entries last)
    (hfinish : finish last = .ok value) :
    Writes (record fields start finish (depth + 1)) (objectText entries) value where
  starts := starts_object entries
  finds := by
    intro after _
    obtain ⟨rest, behind, hnext, hread, hbehind⟩ := exists_members hentries after
    refine ⟨rest.andThen behind, ?_, hbehind⟩
    simp only [record, hnext, bind, Except.bind]
    rw [if_neg (by decide), if_true]
    simp only [hread, hfinish]
    rfl

theorem writes_ofMap {depth : Nat} {reader : Nat → Reader α} {entries : List (String × Bytes)}
    {found : List (String × α)}
    (hentries : Gathers (keptMember (reader depth)) [] entries found) :
    Writes (map (depth + 1) reader) (objectText entries) found where
  starts := starts_object entries
  finds := by
    intro after _
    obtain ⟨rest, behind, hnext, hread, hbehind⟩ := exists_members hentries after
    refine ⟨rest.andThen behind, ?_, hbehind⟩
    simp only [map, hnext, bind, Except.bind]
    rw [if_true]
    simp only [hread]
    rfl

theorem writes_quoted (content : String) : Writes quoted (printText content) content where
  starts := ⟨_, _, rfl, by decide, by decide⟩
  finds := by
    intro after _
    obtain ⟨rest, behind, hnext, hread, hbehind⟩ := exists_quoted content after
    refine ⟨rest.andThen behind, ?_, hbehind⟩
    simp only [quoted, hnext, bind, Except.bind, if_true]
    simp only [hread]
    rfl

theorem writes_naturalBelow {bound n : Nat} (hn : n < bound) (hword : bound ≤ 2 ^ 64) :
    Writes (naturalBelow bound) (printNumber (.int n)) n := by
  have hfits : FitsWord n := ⟨by omega, by omega⟩
  obtain ⟨b, tail, htext, hstarts, hnumber⟩ := exists_number hfits
  obtain ⟨hspace, hclose, -⟩ := startsNumber_ne hstarts
  rw [htext]
  refine ⟨⟨b, tail, rfl, hspace, hclose⟩, fun after hafter => ?_⟩
  obtain ⟨rest, hnext, hrest⟩ := finds_next hspace (tail ++ after)
  have hfound := hnumber after hafter
  rw [← hrest] at hfound
  obtain ⟨behind, hread, hbehind⟩ := hfound
  show Finds (naturalBelow bound) (b :: (tail ++ after)) _ after
  refine ⟨rest.fromFirst behind, ?_, hbehind⟩
  simp only [naturalBelow, hnext, bind, Except.bind, hstarts, if_true]
  simp only [hread]
  rw [if_pos ⟨Int.natCast_nonneg n, Int.ofNat_lt.mpr hn⟩]
  rfl

end RoutedSession.Json.Read
