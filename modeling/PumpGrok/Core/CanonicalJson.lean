import Mathlib
import PumpGrok.Lib.Dict
import PumpGrok.Lib.Prog
import PumpGrok.Lib.JsonText

/-!
Deterministic JSON: sorted keys, no whitespace, no floats. What is read back from it has the
members of the object it was made from.
-/

namespace PumpGrok

open Json (Value)

namespace CanonicalJson

def text (s : String) : List Char := s.toList

/-- `{path}: float leaves are forbidden (money is int, ratios are Decimal)`. -/
def floatLeaf (path : List Char) : List Char :=
  path ++ text ": float leaves are forbidden (money is int, ratios are Decimal)"

mutual

/-- Refuse a float leaf, naming its path. -/
def normalize (path : List Char) : Value → Except (List Char) Value
  | .float _ => .error (floatLeaf path)
  | .arr vs => (normalizeItems path 0 vs).map .arr
  | .obj ms => (normalizeMembers path ms).map .obj
  | v => .ok v

def normalizeItems (path : List Char) (i : ℕ) : List Value → Except (List Char) (List Value)
  | [] => .ok []
  | v :: vs => do
    let v ← normalize (path ++ '[' :: (Nat.toDigits 10 i ++ [']'])) v
    let vs ← normalizeItems path (i + 1) vs
    .ok (v :: vs)

def normalizeMembers (path : List Char) :
    List (List Char × Value) → Except (List Char) (List (List Char × Value))
  | [] => .ok []
  | (k, v) :: ms => do
    let v ← normalize (path ++ '.' :: k) v
    let ms ← normalizeMembers path ms
    .ok ((k, v) :: ms)

end

def sortMembers (ms : List (List Char × Value)) : List (List Char × Value) :=
  ms.mergeSort fun a b => decide (a.1 ≤ b.1)

mutual

def sortKeys : Value → Value
  | .arr vs => .arr (sortKeysItems vs)
  | .obj ms => .obj (sortMembers (sortKeysMembers ms))
  | v => v

def sortKeysItems : List Value → List Value
  | [] => []
  | v :: vs => sortKeys v :: sortKeysItems vs

def sortKeysMembers : List (List Char × Value) → List (List Char × Value)
  | [] => []
  | (k, v) :: ms => (k, sortKeys v) :: sortKeysMembers ms

end

def compact : Json.Style := ⟨true, false⟩

def canonicalJson (payload : List (List Char × Value)) : Except (List Char) (List Char) := do
  let v ← normalize (text "$") (.obj payload)
  .ok (Json.dumps compact (sortKeys v))

/-! ### What is read back -/

mutual

lemma normalize_ok {path : List Char} {w : Value} :
    ∀ v : Value, normalize path v = .ok w → w = v
  | .null, h => by simpa [normalize, eq_comm] using h
  | .bool _, h => by simpa [normalize, eq_comm] using h
  | .num _, h => by simpa [normalize, eq_comm] using h
  | .str _, h => by simpa [normalize, eq_comm] using h
  | .float _, h => by simp [normalize] at h
  | .arr vs, h => by
    rcases hvs : normalizeItems path 0 vs with e | us
    · simp [normalize, hvs, Except.map] at h
    · have hus := normalizeItems_ok vs hvs
      simpa [normalize, hvs, Except.map, hus, eq_comm] using h
  | .obj ms, h => by
    rcases hms : normalizeMembers path ms with e | us
    · simp [normalize, hms, Except.map] at h
    · have hus := normalizeMembers_ok ms hms
      simpa [normalize, hms, Except.map, hus, eq_comm] using h

lemma normalizeItems_ok {path : List Char} {i : ℕ} {us : List Value} :
    ∀ vs : List Value, normalizeItems path i vs = .ok us → us = vs
  | [], h => by simpa [normalizeItems, eq_comm] using h
  | v :: vs, h => by
    rw [normalizeItems] at h
    obtain ⟨v', hv, h⟩ := except_bind_ok_iff.mp h
    obtain ⟨us', hus, h⟩ := except_bind_ok_iff.mp h
    cases h
    rw [normalize_ok v hv, normalizeItems_ok vs hus]

lemma normalizeMembers_ok {path : List Char} {us : List (List Char × Value)} :
    ∀ ms : List (List Char × Value), normalizeMembers path ms = .ok us → us = ms
  | [], h => by simpa [normalizeMembers, eq_comm] using h
  | (k, v) :: ms, h => by
    rw [normalizeMembers] at h
    obtain ⟨v', hv, h⟩ := except_bind_ok_iff.mp h
    obtain ⟨us', hus, h⟩ := except_bind_ok_iff.mp h
    cases h
    rw [normalize_ok v hv, normalizeMembers_ok ms hus]

end

mutual

/-- Whether a value is refused does not depend on its path. -/
lemma normalize_path {path path' : List Char} {w : Value} :
    ∀ v : Value, normalize path v = .ok w → normalize path' v = .ok v
  | .null, _ => by simp [normalize]
  | .bool _, _ => by simp [normalize]
  | .num _, _ => by simp [normalize]
  | .str _, _ => by simp [normalize]
  | .float _, h => by simp [normalize] at h
  | .arr vs, h => by
    rcases hvs : normalizeItems path 0 vs with e | us
    · simp [normalize, hvs, Except.map] at h
    · have hitems : normalizeItems path' 0 vs = .ok vs := normalizeItems_path vs hvs
      simp [normalize, hitems, Except.map]
  | .obj ms, h => by
    rcases hms : normalizeMembers path ms with e | us
    · simp [normalize, hms, Except.map] at h
    · have hmembers : normalizeMembers path' ms = .ok ms := normalizeMembers_path ms hms
      simp [normalize, hmembers, Except.map]

lemma normalizeItems_path {path path' : List Char} {i i' : ℕ} {us : List Value} :
    ∀ vs : List Value, normalizeItems path i vs = .ok us → normalizeItems path' i' vs = .ok vs
  | [], _ => by simp [normalizeItems]
  | v :: vs, h => by
    rw [normalizeItems] at h
    obtain ⟨v', hv, h⟩ := except_bind_ok_iff.mp h
    obtain ⟨us', hus, -⟩ := except_bind_ok_iff.mp h
    rw [normalizeItems, normalize_path v hv, normalizeItems_path vs hus]
    rfl

lemma normalizeMembers_path {path path' : List Char} {us : List (List Char × Value)} :
    ∀ ms : List (List Char × Value),
      normalizeMembers path ms = .ok us → normalizeMembers path' ms = .ok ms
  | [], _ => by simp [normalizeMembers]
  | (k, v) :: ms, h => by
    rw [normalizeMembers] at h
    obtain ⟨v', hv, h⟩ := except_bind_ok_iff.mp h
    obtain ⟨us', hus, -⟩ := except_bind_ok_iff.mp h
    rw [normalizeMembers, normalize_path v hv, normalizeMembers_path ms hus]
    rfl

end

/-- A canonical dump is the dump of the object with its members sorted. -/
lemma canonicalJson_ok {payload : List (List Char × Value)} {t : List Char}
    (h : canonicalJson payload = .ok t) :
    t = Json.dumps compact (.obj (sortMembers (sortKeysMembers payload))) := by
  obtain ⟨v, hv, ht⟩ := except_bind_ok_iff.mp h
  cases ht
  rw [normalize_ok _ hv, sortKeys]

lemma map_fst_sortKeysMembers (ms : List (List Char × Value)) :
    (sortKeysMembers ms).map Prod.fst = ms.map Prod.fst := by
  induction ms with
  | nil => rfl
  | cons m ms ih =>
    obtain ⟨k, v⟩ := m
    simp [sortKeysMembers, ih]

lemma mem_sortKeysMembers {ms : List (List Char × Value)} {k : List Char} {v : Value}
    (h : (k, v) ∈ ms) : (k, sortKeys v) ∈ sortKeysMembers ms := by
  induction ms with
  | nil => simp at h
  | cons m ms ih =>
    obtain ⟨l, w⟩ := m
    rw [sortKeysMembers]
    rcases List.mem_cons.mp h with h | h
    · cases h
      exact List.mem_cons_self
    · exact List.mem_cons_of_mem _ (ih h)

/-- Sorting changes no member but its place. -/
lemma get_sortMembers {ms : List (List Char × Value)} (hn : (ms.map Prod.fst).Nodup)
    {k : List Char} {v : Value} (h : (k, v) ∈ ms) :
    AssocList.get k (sortMembers (sortKeysMembers ms)).reverse = some (sortKeys v) := by
  have hperm : (sortMembers (sortKeysMembers ms)).reverse.Perm (sortKeysMembers ms) :=
    (List.reverse_perm _).trans (List.mergeSort_perm _ _)
  refine AssocList.get_of_mem ?_ (hperm.mem_iff.mpr (mem_sortKeysMembers h))
  rw [(hperm.map Prod.fst).nodup_iff, map_fst_sortKeysMembers]
  exact hn

lemma sortMembers_pair_le {a b : List Char × Value} (h : a.1 ≤ b.1) :
    sortMembers [a, b] = [a, b] := by
  rw [sortMembers, List.mergeSort]
  simp [h]

lemma sortMembers_pair_gt {a b : List Char × Value} (h : ¬ a.1 ≤ b.1) :
    sortMembers [a, b] = [b, a] := by
  rw [sortMembers, List.mergeSort]
  simp [List.merge] at h ⊢
  simp [h]

end CanonicalJson

end PumpGrok
