import RoutedSession.Json.Value

namespace RoutedSession

variable {α : Type}

/-- The keys come in order, and none of them twice. -/
def KeysAscend (entries : List (String × α)) : Prop :=
  entries.Pairwise fun a b => a.1 < b.1

instance (entries : List (String × α)) : Decidable (KeysAscend entries) :=
  inferInstanceAs (Decidable (entries.Pairwise fun a b => a.1 < b.1))

theorem lt_of_not_lt_of_ne {key other : String} (hlt : ¬key < other) (hne : key ≠ other) :
    other < key :=
  Decidable.byContradiction fun hlt' =>
    hne (String.le_antisymm (String.not_lt.mp hlt') (String.not_lt.mp hlt))

theorem insertSorted_perm {key : String} {value : α} {entries : List (String × α)}
    (hnew : ∀ entry ∈ entries, entry.1 ≠ key) :
    (insertSorted key value entries).Perm ((key, value) :: entries) := by
  induction entries with
  | nil => exact List.Perm.refl _
  | cons entry rest ih =>
      obtain ⟨other, kept⟩ := entry
      rw [List.forall_mem_cons] at hnew
      rw [insertSorted]
      split
      · exact List.Perm.refl _
      · rw [if_neg (Ne.symm hnew.1)]
        exact ((ih hnew.2).cons _).trans (List.Perm.swap _ _ _)

theorem keysAscend_insertSorted {key : String} {value : α} {entries : List (String × α)}
    (hentries : KeysAscend entries) (hnew : ∀ entry ∈ entries, entry.1 ≠ key) :
    KeysAscend (insertSorted key value entries) := by
  induction entries with
  | nil => exact List.pairwise_singleton _ _
  | cons entry rest ih =>
      obtain ⟨other, kept⟩ := entry
      rw [List.forall_mem_cons] at hnew
      obtain ⟨hfirst, hrest⟩ := List.pairwise_cons.mp hentries
      rw [insertSorted]
      split
      · rename_i hlt
        refine List.pairwise_cons.mpr ⟨?_, hentries⟩
        rintro entry (_ | ⟨_, hmem⟩)
        · exact hlt
        · exact String.lt_trans hlt (hfirst entry hmem)
      · rename_i hlt
        rw [if_neg (Ne.symm hnew.1)]
        refine List.pairwise_cons.mpr ⟨?_, ih hrest hnew.2⟩
        intro entry hmem
        rcases List.mem_cons.mp ((insertSorted_perm hnew.2).mem_iff.mp hmem) with rfl | hmem
        · exact lt_of_not_lt_of_ne hlt (Ne.symm hnew.1)
        · exact hfirst entry hmem

def setAll (entries : List (String × α)) (gathered : List (String × α)) : List (String × α) :=
  entries.foldl (fun gathered entry => insertSorted entry.1 entry.2 gathered) gathered

theorem setAll_perm {entries gathered : List (String × α)} (hgathered : KeysAscend gathered)
    (hdistinct : (entries ++ gathered).Pairwise fun a b => a.1 ≠ b.1) :
    (setAll entries gathered).Perm (entries ++ gathered) ∧
      KeysAscend (setAll entries gathered) := by
  induction entries generalizing gathered with
  | nil => exact ⟨List.Perm.refl _, hgathered⟩
  | cons entry rest ih =>
      obtain ⟨key, value⟩ := entry
      obtain ⟨hkey, hrest⟩ := List.pairwise_cons.mp hdistinct
      have hnew : ∀ entry ∈ gathered, entry.1 ≠ key := fun entry hentry =>
        (hkey entry (List.mem_append_right rest hentry)).symm
      have hperm := (@insertSorted_perm _ key value _ hnew).append_left rest
      have hswap := hperm.trans List.perm_middle
      obtain ⟨hset, hascend⟩ := ih (keysAscend_insertSorted hgathered hnew)
        (hswap.symm.pairwise hdistinct fun h => h.symm)
      exact ⟨hset.trans hswap, hascend⟩

theorem setAll_of_perm {written entries : List (String × α)} (hentries : KeysAscend entries)
    (hwritten : written.Perm entries) : setAll written [] = entries := by
  have hdistinct : written.Pairwise fun a b => a.1 ≠ b.1 := by
    refine hwritten.symm.pairwise (hentries.imp ?_) fun h => h.symm
    rintro a b hlt heq
    exact String.lt_irrefl a.1 (heq ▸ hlt)
  obtain ⟨hperm, hascend⟩ := setAll_perm List.Pairwise.nil (by simpa using hdistinct)
  rw [List.append_nil] at hperm
  refine (hperm.trans hwritten).eq_of_pairwise ?_ hascend hentries
  intro a b _ _ hab hba
  exact absurd hba (String.lt_asymm hab)

end RoutedSession
