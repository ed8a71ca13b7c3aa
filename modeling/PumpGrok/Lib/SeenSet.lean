import Mathlib

/-!
A set that remembers the last keys added to it, up to a bound, in the order they were added.
-/

namespace PumpGrok

/-- At most `maxlen` keys, the newest last. -/
structure SeenSet (κ : Type) (maxlen : ℕ) where
  items : List κ
  nodup : items.Nodup
  bounded : items.length ≤ maxlen

namespace SeenSet

variable {κ : Type} {maxlen : ℕ}

def empty : SeenSet κ maxlen := ⟨[], List.nodup_nil, Nat.zero_le _⟩

instance : EmptyCollection (SeenSet κ maxlen) := ⟨empty⟩

instance : Membership κ (SeenSet κ maxlen) := ⟨fun s k => k ∈ s.items⟩

variable [DecidableEq κ]

instance (k : κ) (s : SeenSet κ maxlen) : Decidable (k ∈ s) :=
  inferInstanceAs (Decidable (k ∈ s.items))

/-- The keys with `k` as the newest. -/
def renewed (items : List κ) (k : κ) : List κ := items.erase k ++ [k]

lemma nodup_renewed {items : List κ} (h : items.Nodup) (k : κ) : (renewed items k).Nodup :=
  (h.erase k).append (List.nodup_singleton k) (by simpa using h.not_mem_erase)

/-- Add a key as the newest; the oldest go while there are too many. -/
def add (s : SeenSet κ maxlen) (k : κ) : SeenSet κ maxlen where
  items := (renewed s.items k).drop ((renewed s.items k).length - maxlen)
  nodup := (nodup_renewed s.nodup k).sublist (List.drop_sublist _ _)
  bounded := by
    rw [List.length_drop]
    omega

def addAll (s : SeenSet κ maxlen) (ks : List κ) : SeenSet κ maxlen := ks.foldl add s

lemma addAll_cons (s : SeenSet κ maxlen) (k : κ) (ks : List κ) :
    s.addAll (k :: ks) = (s.add k).addAll ks := rfl

lemma mem_of_mem_add {s : SeenSet κ maxlen} {j k : κ} (h : j ∈ s.add k) : j = k ∨ j ∈ s := by
  have hmem : j ∈ renewed s.items k := List.mem_of_mem_drop h
  rcases List.mem_append.mp hmem with hj | hj
  · exact .inr (List.mem_of_mem_erase hj)
  · exact .inl (List.mem_singleton.mp hj)

lemma mem_of_mem_addAll {s : SeenSet κ maxlen} {ks : List κ} {j : κ} (h : j ∈ s.addAll ks) :
    j ∈ ks ∨ j ∈ s := by
  induction ks generalizing s with
  | nil => exact .inr h
  | cons k ks ih =>
    rcases ih h with hj | hj
    · exact .inl (List.mem_cons_of_mem _ hj)
    · rcases mem_of_mem_add hj with rfl | hj
      · exact .inl List.mem_cons_self
      · exact .inr hj

/-- What was added last stays last while no more than `maxlen` keys are added. -/
lemma suffix_add {s : SeenSet κ maxlen} {p : List κ} {k : κ} (hp : p <:+ s.items) (hk : k ∉ p)
    (hlen : p.length < maxlen) : p ++ [k] <:+ (s.add k).items := by
  obtain ⟨q, hq⟩ := hp
  have herase : ∃ q', s.items.erase k = q' ++ p := by
    by_cases hkq : k ∈ q
    · exact ⟨q.erase k, by rw [← hq, List.erase_append_left _ hkq]⟩
    · refine ⟨q, ?_⟩
      rw [← hq, List.erase_of_not_mem]
      simp [hkq, hk]
  obtain ⟨q', hq'⟩ := herase
  have hren : renewed s.items k = q' ++ (p ++ [k]) := by
    rw [renewed, hq', List.append_assoc]
  refine ⟨q'.drop ((renewed s.items k).length - maxlen), ?_⟩
  show _ = (renewed s.items k).drop ((renewed s.items k).length - maxlen)
  rw [hren, List.drop_append_of_le_length]
  simp only [List.length_append, List.length_singleton]
  omega

lemma self_mem_add (s : SeenSet κ maxlen) (k : κ) (h : 0 < maxlen) : k ∈ s.add k :=
  (suffix_add (p := []) List.nil_suffix List.not_mem_nil h).subset (by simp)

/-- **What is added is remembered**: of keys added one after the other none goes, as long as
they are distinct and no more than the bound. -/
theorem suffix_addAll {s : SeenSet κ maxlen} {p ks : List κ} (hp : p <:+ s.items)
    (hn : (p ++ ks).Nodup) (hlen : (p ++ ks).length ≤ maxlen) :
    p ++ ks <:+ (s.addAll ks).items := by
  induction ks generalizing s p with
  | nil =>
    rw [List.append_nil]
    exact hp
  | cons k ks ih =>
    have hsplit : p ++ k :: ks = p ++ [k] ++ ks := by simp
    have hk : k ∉ p := fun hmem =>
      (List.nodup_append.mp hn).2.2 k hmem k List.mem_cons_self rfl
    have hlt : p.length < maxlen := by
      rw [List.length_append, List.length_cons] at hlen
      omega
    rw [hsplit] at hn hlen ⊢
    exact ih (suffix_add hp hk hlt) hn hlen

lemma mem_addAll {s : SeenSet κ maxlen} {ks : List κ} (hn : ks.Nodup) (hlen : ks.length ≤ maxlen)
    {k : κ} (hk : k ∈ ks) : k ∈ s.addAll ks :=
  (suffix_addAll (s := s) (p := []) List.nil_suffix hn hlen).subset hk

end SeenSet

end PumpGrok
