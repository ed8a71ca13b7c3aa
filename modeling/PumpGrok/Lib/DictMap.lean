import PumpGrok.Lib.Dict

/-!
Dictionaries built from others: a comprehension over the entries, and an update by another
dictionary.
-/

namespace PumpGrok

variable {κ ν μ : Type}

namespace Dict

lemma keys_filterMap (f : κ → ν → Option μ) (l : List (κ × ν)) :
    (l.filterMap fun x => (f x.1 x.2).map (x.1, ·)).map Prod.fst =
      (l.filter fun x => (f x.1 x.2).isSome).map Prod.fst := by
  induction l with
  | nil => rfl
  | cons x r ih =>
    rcases hx : f x.1 x.2 with - | u
    · rw [List.filterMap_cons_none (by rw [hx]; rfl), ih, List.filter_cons_of_neg (by simp [hx])]
    · rw [List.filterMap_cons_some (by rw [hx]; rfl), List.map_cons, ih,
        List.filter_cons_of_pos (by simp [hx]), List.map_cons]

/-- The entries a function keeps, under their keys and in their order. -/
def filterMap (f : κ → ν → Option μ) (d : Dict κ ν) : Dict κ μ where
  entries := d.entries.filterMap fun x => (f x.1 x.2).map (x.1, ·)
  nodup := by
    rw [keys_filterMap]
    exact d.nodup.sublist (List.filter_sublist.map _)

def mapValues (f : ν → μ) (d : Dict κ ν) : Dict κ μ := d.filterMap fun _ v => some (f v)

lemma entries_mapValues (f : ν → μ) (d : Dict κ ν) :
    (d.mapValues f).entries = d.entries.map fun x => (x.1, f x.2) := by
  simp [mapValues, filterMap, List.filterMap_eq_map']

variable [DecidableEq κ]

@[simp] lemma get_filterMap (f : κ → ν → Option μ) (d : Dict κ ν) (k : κ) :
    (d.filterMap f).get k = (d.get k).bind (f k) := by
  rcases h : (d.get k).bind (f k) with - | u
  · rcases h' : (d.filterMap f).get k with - | u
    · rfl
    · obtain ⟨x, hx, hu⟩ := List.mem_filterMap.mp ((mem_entries_iff _ k u).mpr h')
      obtain ⟨v, hv, he⟩ := Option.map_eq_some_iff.mp hu
      obtain ⟨rfl, rfl⟩ := Prod.mk.inj he
      rw [(mem_entries_iff d x.1 x.2).mp hx, Option.bind_some, hv] at h
      cases h
  · obtain ⟨v, hv, hu⟩ := Option.bind_eq_some_iff.mp h
    refine (mem_entries_iff _ k u).mp (List.mem_filterMap.mpr ⟨(k, v), ?_, ?_⟩)
    · exact (mem_entries_iff d k v).mpr hv
    · rw [hu, Option.map_some]

@[simp] lemma get_mapValues (f : ν → μ) (d : Dict κ ν) (k : κ) :
    (d.mapValues f).get k = (d.get k).map f := by
  rw [mapValues, get_filterMap]
  cases d.get k <;> rfl

/-- The entries of the second overwrite those of the first. -/
def update (d d' : Dict κ ν) : Dict κ ν := d'.entries.foldl (fun d x => d.set x.1 x.2) d

@[simp] lemma get_update (d d' : Dict κ ν) (k : κ) :
    (d.update d').get k = (d'.get k).or (d.get k) := by
  obtain ⟨l, hl⟩ := d'
  induction l generalizing d with
  | nil => rfl
  | cons x r ih =>
    rw [List.map_cons, List.nodup_cons] at hl
    have hrest : (d.update ⟨x :: r, List.nodup_cons.mpr hl⟩) = (d.set x.1 x.2).update ⟨r, hl.2⟩ :=
      rfl
    rw [hrest, ih (d.set x.1 x.2) hl.2, get_set]
    by_cases hk : x.1 = k
    · have hfree : AssocList.get k r = none := AssocList.get_eq_none_iff.mpr (hk ▸ hl.1)
      simp [get, AssocList.get, hk, hfree]
    · have hne : k ≠ x.1 := fun h => hk h.symm
      simp [get, AssocList.get, hk, hne]

/-! ### Totals -/

/-- A total is the sum over the keys of what is found there. -/
lemma total_eq_sum (d : Dict κ ν) (f : ν → ℤ) :
    d.total f = ∑ k ∈ d.keys.toFinset, ((d.get k).map f).getD 0 := by
  rw [keys, List.sum_toFinset _ d.nodup, List.map_map, total]
  refine congrArg List.sum (List.map_congr_left fun x hx => ?_)
  have hget : d.get x.1 = some x.2 := (mem_entries_iff d x.1 x.2).mp hx
  rw [Function.comp_apply, hget]
  rfl

/-- Dictionaries that agree on a measure at every key have the same total. -/
theorem total_congr {d d' : Dict κ ν} {f : ν → ℤ}
    (h : ∀ k, (d.get k).map f = (d'.get k).map f) : d.total f = d'.total f := by
  have hkeys : d.keys.toFinset = d'.keys.toFinset := by
    ext k
    rw [List.mem_toFinset, List.mem_toFinset, mem_keys_iff, mem_keys_iff]
    have hk := congrArg Option.isSome (h k)
    rw [Option.isSome_map, Option.isSome_map] at hk
    rw [← Option.isSome_iff_ne_none, ← Option.isSome_iff_ne_none, hk]
  rw [total_eq_sum, total_eq_sum, hkeys]
  exact Finset.sum_congr rfl fun k _ => by rw [h k]

end Dict

end PumpGrok
