import Mathlib

/-!
Dictionaries that remember insertion order: a list of key-value pairs with distinct keys.
Overwriting a key keeps its place, a new key goes to the end.
-/

namespace PumpGrok

variable {κ ν : Type}

namespace AssocList

variable [DecidableEq κ]

def get (k : κ) : List (κ × ν) → Option ν
  | [] => none
  | (a, u) :: r => if a = k then some u else get k r

def set (k : κ) (v : ν) : List (κ × ν) → List (κ × ν)
  | [] => [(k, v)]
  | (a, u) :: r => if a = k then (k, v) :: r else (a, u) :: set k v r

def erase (k : κ) : List (κ × ν) → List (κ × ν)
  | [] => []
  | (a, u) :: r => if a = k then r else (a, u) :: erase k r

lemma get_eq_none_iff {k : κ} {l : List (κ × ν)} : get k l = none ↔ k ∉ l.map Prod.fst := by
  induction l with
  | nil => simp [get]
  | cons x r ih =>
    obtain ⟨a, u⟩ := x
    by_cases h : a = k
    · simp [get, h]
    · simp only [get, if_neg h, List.map_cons, List.mem_cons, not_or, ih]
      exact ⟨fun hr => ⟨fun e => h e.symm, hr⟩, fun hr => hr.2⟩

lemma mem_of_get {k : κ} {v : ν} {l : List (κ × ν)} (h : get k l = some v) : (k, v) ∈ l := by
  induction l with
  | nil => simp [get] at h
  | cons x r ih =>
    obtain ⟨a, u⟩ := x
    by_cases ha : a = k
    · subst ha
      have : u = v := by simpa [get] using h
      simp [this]
    · exact List.mem_cons_of_mem _ (ih (by simpa [get, ha] using h))

lemma get_of_mem {k : κ} {v : ν} {l : List (κ × ν)} (hn : (l.map Prod.fst).Nodup)
    (h : (k, v) ∈ l) : get k l = some v := by
  induction l with
  | nil => simp at h
  | cons x r ih =>
    obtain ⟨a, u⟩ := x
    rw [List.map_cons, List.nodup_cons] at hn
    rcases List.mem_cons.mp h with he | hr
    · cases he
      simp [get]
    · have ha : a ≠ k := fun e => hn.1 (by
        rw [e]
        exact List.mem_map.mpr ⟨(k, v), hr, rfl⟩)
      simp [get, ha, ih hn.2 hr]

lemma get_append (k : κ) (l l' : List (κ × ν)) :
    get k (l ++ l') = (get k l).or (get k l') := by
  induction l with
  | nil => rfl
  | cons x r ih =>
    by_cases hx : x.1 = k <;> simp [get, hx, ih]

lemma get_set_self (k : κ) (v : ν) (l : List (κ × ν)) : get k (set k v l) = some v := by
  induction l with
  | nil => simp [get, set]
  | cons x r ih =>
    by_cases h : x.1 = k <;> simp [get, set, h, ih]

lemma get_set_ne {k j : κ} (v : ν) (l : List (κ × ν)) (h : j ≠ k) :
    get j (set k v l) = get j l := by
  induction l with
  | nil => simp [get, set, h.symm]
  | cons x r ih =>
    by_cases hk : x.1 = k
    · simp [get, set, hk, h.symm]
    · rw [set, if_neg hk, get, get, ih]

lemma get_erase_ne {k j : κ} (l : List (κ × ν)) (h : j ≠ k) :
    get j (erase k l) = get j l := by
  induction l with
  | nil => simp [get, erase]
  | cons x r ih =>
    by_cases hk : x.1 = k
    · simp [get, erase, hk, h.symm]
    · rw [erase, if_neg hk, get, get, ih]

lemma keys_set (k : κ) (v : ν) (l : List (κ × ν)) :
    (set k v l).map Prod.fst =
      if k ∈ l.map Prod.fst then l.map Prod.fst else l.map Prod.fst ++ [k] := by
  induction l with
  | nil => simp [set]
  | cons x r ih =>
    by_cases h : x.1 = k
    · simp [set, h]
    · have h' : k ≠ x.1 := fun e => h e.symm
      simp only [set, if_neg h, List.map_cons, ih, List.mem_cons, h', false_or]
      split_ifs <;> simp

lemma keys_erase_sublist (k : κ) (l : List (κ × ν)) :
    ((erase k l).map Prod.fst).Sublist (l.map Prod.fst) := by
  induction l with
  | nil => simp [erase]
  | cons x r ih =>
    by_cases h : x.1 = k
    · simp [erase, h]
    · simpa [erase, h] using ih

lemma get_erase_self {k : κ} {l : List (κ × ν)} (hn : (l.map Prod.fst).Nodup) :
    get k (erase k l) = none := by
  induction l with
  | nil => simp [get, erase]
  | cons x r ih =>
    rw [List.map_cons, List.nodup_cons] at hn
    by_cases h : x.1 = k
    · subst h
      simpa [erase] using get_eq_none_iff.mpr hn.1
    · simp [get, erase, h, ih hn.2]

/-- Overwriting a key changes its entry alone. -/
lemma set_eq_map {k : κ} {l : List (κ × ν)} (v : ν) (hn : (l.map Prod.fst).Nodup)
    (hk : k ∈ l.map Prod.fst) : set k v l = l.map fun x => if x.1 = k then (k, v) else x := by
  induction l with
  | nil => simp at hk
  | cons x r ih =>
    rw [List.map_cons, List.nodup_cons] at hn
    by_cases hx : x.1 = k
    · have hr : ∀ y ∈ r, (if y.1 = k then (k, v) else y) = y := by
        intro y hy
        rw [if_neg fun hyk => hn.1 ?_]
        rw [hx, ← hyk]
        exact List.mem_map_of_mem hy
      rw [set, if_pos hx, List.map_cons, if_pos hx, List.map_congr_left hr, List.map_id']
    · have hkr : k ∈ r.map Prod.fst := by
        rw [List.map_cons, List.mem_cons] at hk
        exact hk.resolve_left fun h => hx h.symm
      rw [set, if_neg hx, List.map_cons, if_neg hx, ih hn.2 hkr]

/-- Two measures of the entries that differ at one key. -/
lemma sum_differ {k : κ} {u : ν} {l : List (κ × ν)} {f g : κ × ν → ℤ}
    (hn : (l.map Prod.fst).Nodup) (h : get k l = some u)
    (hfg : ∀ x ∈ l, x.1 ≠ k → f x = g x) :
    (l.map f).sum = (l.map g).sum - g (k, u) + f (k, u) := by
  induction l with
  | nil => simp [get] at h
  | cons x r ih =>
    rw [List.map_cons, List.nodup_cons] at hn
    by_cases hx : x.1 = k
    · have hxu : x = (k, u) := by
        refine Prod.ext hx ?_
        simpa [get, hx] using h
      have hr : r.map f = r.map g := by
        refine List.map_congr_left fun y hy => hfg y (List.mem_cons_of_mem _ hy) fun hyk => hn.1 ?_
        rw [hx, ← hyk]
        exact List.mem_map_of_mem hy
      simp only [List.map_cons, List.sum_cons, hr, hxu]
      ring
    · have := ih hn.2 (by simpa [get, hx] using h) fun y hy => hfg y (List.mem_cons_of_mem _ hy)
      simp only [List.map_cons, List.sum_cons, this, hfg x (by simp) hx]
      ring
section Sums

variable (f : ν → ℤ)

lemma sum_set_new {k : κ} {l : List (κ × ν)} (v : ν) (h : get k l = none) :
    ((set k v l).map fun x => f x.2).sum = (l.map fun x => f x.2).sum + f v := by
  induction l with
  | nil => simp [set]
  | cons x r ih =>
    by_cases hk : x.1 = k
    · simp [get, hk] at h
    · have := ih (by simpa [get, hk] using h)
      simp only [set, if_neg hk, List.map_cons, List.sum_cons, this]
      ring

lemma sum_set_old {k : κ} {u : ν} {l : List (κ × ν)} (v : ν) (h : get k l = some u) :
    ((set k v l).map fun x => f x.2).sum = (l.map fun x => f x.2).sum - f u + f v := by
  induction l with
  | nil => simp [get] at h
  | cons x r ih =>
    by_cases hk : x.1 = k
    · have : x.2 = u := by simpa [get, hk] using h
      subst this
      simp only [set, if_pos hk, List.map_cons, List.sum_cons]
      ring
    · have := ih (by simpa [get, hk] using h)
      simp only [set, if_neg hk, List.map_cons, List.sum_cons, this]
      ring

lemma sum_erase {k : κ} {u : ν} {l : List (κ × ν)} (h : get k l = some u) :
    ((erase k l).map fun x => f x.2).sum = (l.map fun x => f x.2).sum - f u := by
  induction l with
  | nil => simp [get] at h
  | cons x r ih =>
    by_cases hk : x.1 = k
    · have : x.2 = u := by simpa [get, hk] using h
      subst this
      simp only [erase, if_pos hk, List.map_cons, List.sum_cons]
      ring
    · have := ih (by simpa [get, hk] using h)
      simp only [erase, if_neg hk, List.map_cons, List.sum_cons, this]
      ring

end Sums

lemma erase_of_get_none {k : κ} {l : List (κ × ν)} (h : get k l = none) : erase k l = l := by
  induction l with
  | nil => rfl
  | cons x r ih =>
    by_cases hk : x.1 = k
    · simp [get, hk] at h
    · simp [erase, hk, ih (by simpa [get, hk] using h)]

lemma length_erase {k : κ} {u : ν} {l : List (κ × ν)} (h : get k l = some u) :
    (erase k l).length + 1 = l.length := by
  induction l with
  | nil => simp [get] at h
  | cons x r ih =>
    by_cases hx : x.1 = k
    · simp [erase, hx]
    · have := ih (by simpa [get, hx] using h)
      simp [erase, hx, this]

/-- A new key goes to the end. -/
lemma set_eq_append {k : κ} {l : List (κ × ν)} (v : ν) (h : get k l = none) :
    set k v l = l ++ [(k, v)] := by
  induction l with
  | nil => rfl
  | cons x r ih =>
    by_cases hx : x.1 = k
    · simp [get, hx] at h
    · rw [set, if_neg hx, ih (by simpa [get, hx] using h), List.cons_append]

lemma length_set_le (k : κ) (v : ν) (l : List (κ × ν)) : (set k v l).length ≤ l.length + 1 := by
  induction l with
  | nil => simp [set]
  | cons x r ih =>
    by_cases hx : x.1 = k <;> simp [set, hx, ih]

end AssocList

/-- A dictionary in insertion order. -/
@[ext]
structure Dict (κ ν : Type) where
  entries : List (κ × ν)
  nodup : (entries.map Prod.fst).Nodup

namespace Dict

def empty : Dict κ ν := ⟨[], List.nodup_nil⟩

instance : EmptyCollection (Dict κ ν) := ⟨empty⟩

/-- The sum of a measure of the values. -/
def total (d : Dict κ ν) (f : ν → ℤ) : ℤ := (d.entries.map fun x => f x.2).sum

@[simp] lemma total_empty (f : ν → ℤ) : (∅ : Dict κ ν).total f = 0 := rfl

variable [DecidableEq κ]

def get (d : Dict κ ν) (k : κ) : Option ν := AssocList.get k d.entries

def set (d : Dict κ ν) (k : κ) (v : ν) : Dict κ ν where
  entries := AssocList.set k v d.entries
  nodup := by
    rw [AssocList.keys_set]
    split_ifs with h
    · exact d.nodup
    · exact d.nodup.append (List.nodup_singleton k) (by simpa using h)

def erase (d : Dict κ ν) (k : κ) : Dict κ ν where
  entries := AssocList.erase k d.entries
  nodup := d.nodup.sublist (AssocList.keys_erase_sublist k d.entries)

/-- Drop the oldest entries until at most `n` are left. -/
def keepNewest (d : Dict κ ν) (n : ℕ) : Dict κ ν where
  entries := d.entries.drop (d.entries.length - n)
  nodup := d.nodup.sublist ((List.drop_sublist _ _).map _)

def keys (d : Dict κ ν) : List κ := d.entries.map Prod.fst

def size (d : Dict κ ν) : ℕ := d.entries.length

def values (d : Dict κ ν) : List ν := d.entries.map Prod.snd

@[simp] lemma get_empty (k : κ) : (∅ : Dict κ ν).get k = none := rfl

@[simp] lemma get_set_self (d : Dict κ ν) (k : κ) (v : ν) : (d.set k v).get k = some v :=
  AssocList.get_set_self k v d.entries

lemma get_set_ne (d : Dict κ ν) {k j : κ} (v : ν) (h : j ≠ k) : (d.set k v).get j = d.get j :=
  AssocList.get_set_ne v d.entries h

lemma get_set (d : Dict κ ν) (k j : κ) (v : ν) :
    (d.set k v).get j = if j = k then some v else d.get j := by
  split_ifs with h
  · rw [h, get_set_self]
  · exact get_set_ne d v h

@[simp] lemma get_erase_self (d : Dict κ ν) (k : κ) : (d.erase k).get k = none :=
  AssocList.get_erase_self d.nodup

lemma get_erase_ne (d : Dict κ ν) {k j : κ} (h : j ≠ k) : (d.erase k).get j = d.get j :=
  AssocList.get_erase_ne d.entries h

lemma get_erase (d : Dict κ ν) (k j : κ) :
    (d.erase k).get j = if j = k then none else d.get j := by
  split_ifs with h
  · rw [h, get_erase_self]
  · exact get_erase_ne d h

lemma mem_entries_iff (d : Dict κ ν) (k : κ) (v : ν) : (k, v) ∈ d.entries ↔ d.get k = some v :=
  ⟨AssocList.get_of_mem d.nodup, AssocList.mem_of_get⟩

lemma mem_values_iff (d : Dict κ ν) (v : ν) : v ∈ d.values ↔ ∃ k, d.get k = some v := by
  simp only [values, List.mem_map, Prod.exists, exists_eq_right, mem_entries_iff]

section Total

variable (f : ν → ℤ)

lemma total_set_new {d : Dict κ ν} {k : κ} (v : ν) (h : d.get k = none) :
    (d.set k v).total f = d.total f + f v :=
  AssocList.sum_set_new f v h

lemma total_set_old {d : Dict κ ν} {k : κ} {u : ν} (v : ν) (h : d.get k = some u) :
    (d.set k v).total f = d.total f - f u + f v :=
  AssocList.sum_set_old f v h

lemma total_erase {d : Dict κ ν} {k : κ} {u : ν} (h : d.get k = some u) :
    (d.erase k).total f = d.total f - f u :=
  AssocList.sum_erase f h

end Total

/-- Overwriting a key changes its entry alone. -/
lemma entries_set_old {d : Dict κ ν} {k : κ} {u : ν} (v : ν) (h : d.get k = some u) :
    (d.set k v).entries = d.entries.map fun x => if x.1 = k then (k, v) else x :=
  AssocList.set_eq_map v d.nodup (List.mem_map_of_mem ((d.mem_entries_iff k u).mpr h))

/-- A new key goes to the end. -/
lemma entries_set_new {d : Dict κ ν} {k : κ} (v : ν) (h : d.get k = none) :
    (d.set k v).entries = d.entries ++ [(k, v)] :=
  AssocList.set_eq_append v h

lemma erase_of_get_none {d : Dict κ ν} {k : κ} (h : d.get k = none) : d.erase k = d := by
  ext1
  exact AssocList.erase_of_get_none h

lemma length_erase {d : Dict κ ν} {k : κ} {u : ν} (h : d.get k = some u) :
    (d.erase k).entries.length + 1 = d.entries.length :=
  AssocList.length_erase h

lemma length_set_le (d : Dict κ ν) (k : κ) (v : ν) :
    (d.set k v).entries.length ≤ d.entries.length + 1 :=
  AssocList.length_set_le k v d.entries

lemma length_set_old {d : Dict κ ν} {k : κ} {u : ν} (v : ν) (h : d.get k = some u) :
    (d.set k v).entries.length = d.entries.length := by
  rw [entries_set_old v h, List.length_map]

lemma length_erase_le (d : Dict κ ν) (k : κ) :
    (d.erase k).entries.length ≤ d.entries.length := by
  rcases h : d.get k with - | u
  · rw [erase_of_get_none h]
  · have := length_erase h
    omega

lemma length_foldl_erase_le (ks : List κ) (d : Dict κ ν) :
    (ks.foldl erase d).entries.length ≤ d.entries.length := by
  induction ks generalizing d with
  | nil => exact le_refl _
  | cons k ks ih => exact (ih (d.erase k)).trans (d.length_erase_le k)

/-- Erasing a list of keys. -/
lemma get_foldl_erase (ks : List κ) (d : Dict κ ν) (j : κ) :
    (ks.foldl erase d).get j = if j ∈ ks then none else d.get j := by
  induction ks generalizing d with
  | nil => simp
  | cons k ks ih =>
    rw [List.foldl_cons, ih, get_erase]
    by_cases hj : j = k <;> simp [hj]

lemma mem_keys_iff (d : Dict κ ν) (k : κ) : k ∈ d.keys ↔ d.get k ≠ none := by
  rw [ne_eq, get, AssocList.get_eq_none_iff, not_not]
  rfl

/-- What `keepNewest` keeps was there before. -/
lemma get_of_get_keepNewest {d : Dict κ ν} {n : ℕ} {k : κ} {v : ν}
    (h : (d.keepNewest n).get k = some v) : d.get k = some v := by
  rw [← mem_entries_iff] at h ⊢
  exact List.mem_of_mem_drop h

end Dict

end PumpGrok
