import Mathlib.Data.List.Infix

/-!
Conditions on every entry of a list, each next to the entries before it: what an append-only record
says of each row as it was written.
-/

namespace PumpGrok

variable {α : Type}

/-- Every entry of a list meets a condition next to those before it. -/
def EachBehind (P : List α → α → Prop) (xs : List α) : Prop :=
  ∀ front x, front ++ [x] <+: xs → P front x

namespace EachBehind

variable {P Q : List α → α → Prop} {xs ys : List α} {x : α}

lemma nil (P : List α → α → Prop) : EachBehind P [] := by
  intro front x hp
  simp at hp

lemma concat (h : EachBehind P xs) (hx : P xs x) : EachBehind P (xs ++ [x]) := by
  intro front y hp
  rcases List.prefix_concat_iff.mp hp with heq | hp'
  · obtain ⟨rfl, hy⟩ := List.append_inj' heq rfl
    rwa [List.singleton_inj.mp hy]
  · exact h front y hp'

/-- A list is extended entry by entry. -/
lemma append (h : EachBehind P xs) (hys : ∀ front y, front ++ [y] <+: ys → P (xs ++ front) y) :
    EachBehind P (xs ++ ys) := by
  induction ys using List.reverseRecOn with
  | nil => simpa using h
  | append_singleton ys y ih =>
    rw [← List.append_assoc]
    refine (ih fun front z hp => hys front z (hp.trans (List.prefix_append _ _))).concat ?_
    exact hys ys y (List.prefix_refl _)

/-- Entries that meet the condition whatever stands before them. -/
lemma aside (h : EachBehind P xs) (hys : ∀ y ∈ ys, ∀ front, P front y) :
    EachBehind P (xs ++ ys) :=
  h.append fun _ y hp => hys y (hp.subset (by simp)) _

/-- Every entry stands behind some others. -/
lemma of_mem (h : EachBehind P xs) (hx : x ∈ xs) : ∃ front, front ++ [x] <+: xs ∧ P front x := by
  obtain ⟨front, rest, rfl⟩ := List.append_of_mem hx
  have hp : front ++ [x] <+: front ++ x :: rest := ⟨rest, by simp⟩
  exact ⟨front, hp, h front x hp⟩

end EachBehind

/-- Entries that directly follow one entry of a list without repeats are one entry. -/
lemma eq_of_same_before {xs front front' : List α} {x y y' : α} (hn : xs.Nodup)
    (h : front ++ [x] ++ [y] <+: xs) (h' : front' ++ [x] ++ [y'] <+: xs) : y = y' := by
  have hx : xs[front.length]? = some x := by
    obtain ⟨t, rfl⟩ := h
    simp
  have hx' : xs[front'.length]? = some x := by
    obtain ⟨t, rfl⟩ := h'
    simp
  have hy : xs[front.length + 1]? = some y := by
    obtain ⟨t, rfl⟩ := h
    simp
  have hy' : xs[front'.length + 1]? = some y' := by
    obtain ⟨t, rfl⟩ := h'
    simp
  have hlen : front.length = front'.length :=
    (List.getElem?_inj (List.getElem?_eq_some_iff.mp hx).1 hn).mp (hx.trans hx'.symm)
  rw [hlen, hy'] at hy
  exact (Option.some.inj hy).symm

end PumpGrok
