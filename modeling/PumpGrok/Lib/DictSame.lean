import PumpGrok.Lib.DictMap

/-!
Dictionaries up to the order of their entries: the equality of dictionaries that compares no
order, and the order a text form puts the keys in.
-/

namespace PumpGrok

variable {κ ν : Type} [DecidableEq κ]

namespace Dict

/-- As many entries, and each found in the other. -/
def Same (d d' : Dict κ ν) : Prop :=
  d.size = d'.size ∧ ∀ x ∈ d.entries, d'.get x.1 = some x.2

instance [DecidableEq ν] (d d' : Dict κ ν) : Decidable (d.Same d') :=
  inferInstanceAs (Decidable (_ ∧ _))

variable {d d' : Dict κ ν}

lemma keys_subset_of_same (h : d.Same d') : d.keys ⊆ d'.keys := by
  intro k hk
  obtain ⟨x, hx, rfl⟩ := List.mem_map.mp hk
  rw [mem_keys_iff, h.2 x hx]
  exact Option.some_ne_none _

lemma keys_perm_of_same (h : d.Same d') : d.keys.Perm d'.keys := by
  apply (d.nodup.subperm (keys_subset_of_same h)).perm_of_length_le
  simp only [keys, List.length_map]
  exact h.1.ge

/-- **Equality without an order is equality of every lookup.** -/
theorem same_iff : d.Same d' ↔ ∀ k, d.get k = d'.get k := by
  constructor
  · intro h k
    rcases hk : d.get k with - | v
    · have hno : k ∉ d.keys := by rw [mem_keys_iff, hk]; simp
      have hno' : ¬ d'.get k ≠ none := by
        rwa [← mem_keys_iff, ← (keys_perm_of_same h).mem_iff]
      rw [not_not.mp hno']
    · exact (h.2 (k, v) ((mem_entries_iff d k v).mpr hk)).symm
  · intro h
    have hperm : d.entries.Perm d'.entries := by
      apply (List.perm_ext_iff_of_nodup d.nodup.of_map d'.nodup.of_map).mpr
      rintro ⟨k, v⟩
      rw [mem_entries_iff, mem_entries_iff, h k]
    refine ⟨hperm.length_eq, fun x hx => ?_⟩
    rw [← h x.1]
    exact (mem_entries_iff d x.1 x.2).mp hx

lemma Same.trans {d'' : Dict κ ν} (h : d.Same d') (h' : d'.Same d'') : d.Same d'' :=
  same_iff.mpr fun k => (same_iff.mp h k).trans (same_iff.mp h' k)

/-- The entries in the order of their keys. -/
def sortedBy (le : κ → κ → Bool) (d : Dict κ ν) : Dict κ ν where
  entries := d.entries.mergeSort fun x y => le x.1 y.1
  nodup := ((List.mergeSort_perm _ _).map _).nodup_iff.mpr d.nodup

@[simp] lemma get_sortedBy (le : κ → κ → Bool) (d : Dict κ ν) (k : κ) :
    (d.sortedBy le).get k = d.get k := by
  ext v
  rw [← mem_entries_iff, ← mem_entries_iff]
  exact (List.mergeSort_perm _ _).mem_iff

/-! ### Operations on dictionaries that agree -/

lemma get_set_congr (h : ∀ k, d.get k = d'.get k) (j : κ) (v : ν) (k : κ) :
    (d.set j v).get k = (d'.set j v).get k := by
  rw [get_set, get_set, h k]

lemma get_erase_congr (h : ∀ k, d.get k = d'.get k) (j k : κ) :
    (d.erase j).get k = (d'.erase j).get k := by
  rw [get_erase, get_erase, h k]

end Dict

end PumpGrok
