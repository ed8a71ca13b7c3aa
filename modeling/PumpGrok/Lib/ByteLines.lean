import Mathlib

/-!
A file as bytes: texts in UTF-8, lines, and the fragment that an interrupted write leaves after
the last newline.
-/

namespace PumpGrok

abbrev Bytes : Type := List UInt8

namespace Bytes

def encode (t : List Char) : Bytes := t.flatMap String.utf8EncodeChar

def decode (b : Bytes) : Option (List Char) :=
  (ByteArray.utf8Decode? b.toByteArray).map Array.toList

def newline : UInt8 := 10

def carriageReturn : UInt8 := 13

/-- Lines without their ends. The first argument is the current line in reverse, the flag says
that a carriage return just ended one. -/
def splitlinesAux : Bytes → Bool → Bytes → List Bytes
  | cur, _, [] => if cur = [] then [] else [cur.reverse]
  | cur, cr, b :: r =>
    if cr && b = newline then splitlinesAux cur false r
    else if b = newline ∨ b = carriageReturn then
      cur.reverse :: splitlinesAux [] (b = carriageReturn) r
    else splitlinesAux (b :: cur) false r

def splitlines (data : Bytes) : List Bytes := splitlinesAux [] false data

/-- The bytes up to the last newline. -/
def complete (data : Bytes) : Bytes := data.rdropWhile (· ≠ newline)

def joinLines (ls : List Bytes) : Bytes := ls.flatMap (· ++ [newline])

/-- A line has no line end in it. -/
def Line (l : Bytes) : Prop := ∀ b ∈ l, b ≠ newline ∧ b ≠ carriageReturn

section Lines

variable {l : Bytes} {ls : List Bytes}

lemma joinLines_append (ls ls' : List Bytes) :
    joinLines (ls ++ ls') = joinLines ls ++ joinLines ls' := by
  simp [joinLines]

lemma complete_append_torn {data torn : Bytes} (h : newline ∉ torn) :
    complete (data ++ torn) = complete data := by
  induction torn using List.reverseRecOn with
  | nil => simp
  | append_singleton t b ih =>
    simp only [List.mem_append, List.mem_singleton, not_or] at h
    have hb : b ≠ newline := fun e => h.2 e.symm
    rw [← List.append_assoc, complete, List.rdropWhile_concat, if_pos (by simpa using hb)]
    exact ih h.1

lemma complete_joinLines (ls : List Bytes) : complete (joinLines ls) = joinLines ls := by
  induction ls using List.reverseRecOn with
  | nil => rfl
  | append_singleton ls l _ =>
    have hj : joinLines (ls ++ [l]) = joinLines ls ++ l ++ [newline] := by simp [joinLines]
    rw [hj, complete, List.rdropWhile_concat, if_neg (by simp)]

/-- Cutting a file back to its last newline drops the torn fragment and no line. -/
theorem complete_joinLines_torn {torn : Bytes} (h : newline ∉ torn) (ls : List Bytes) :
    complete (joinLines ls ++ torn) = joinLines ls := by
  rw [complete_append_torn h, complete_joinLines]

lemma splitlinesAux_line (cur r : Bytes) (h : Line l) (cr : Bool) (hcr : cr = true → l ≠ []) :
    splitlinesAux cur cr (l ++ newline :: r) = (l.reverse ++ cur).reverse :: splitlines r := by
  induction l generalizing cur cr with
  | nil =>
    have hf : cr = false := by
      rcases cr with - | -
      · rfl
      · exact absurd rfl (hcr rfl)
    subst hf
    have hn : decide (newline = carriageReturn) = false := by decide
    simp [splitlinesAux, splitlines, hn]
  | cons b l ih =>
    have hb := h b (by simp)
    have hl : Line l := fun c hc => h c (by simp [hc])
    rw [List.cons_append, splitlinesAux, if_neg (by simp [hb.1]), if_neg (by simp [hb.1, hb.2]),
      ih (b :: cur) hl false (by simp)]
    simp

/-- **The lines of a file** are the lines written to it. -/
theorem splitlines_joinLines (h : ∀ l ∈ ls, Line l) : splitlines (joinLines ls) = ls := by
  induction ls with
  | nil => rfl
  | cons l ls ih =>
    have hl := splitlinesAux_line [] (joinLines ls) (h l (by simp)) false (by simp)
    have hj : joinLines (l :: ls) = l ++ newline :: joinLines ls := by simp [joinLines]
    rw [hj, splitlines, hl, ih fun x hx => h x (by simp [hx])]
    simp

/-- **An interrupted write** leaves some of the lines and a fragment of the next one. -/
theorem take_joinLines (h : ∀ l ∈ ls, Line l) (j : ℕ) :
    ∃ k torn, (joinLines ls).take j = joinLines (ls.take k) ++ torn ∧ newline ∉ torn ∧
      (torn ≠ [] → k < ls.length) ∧ (ls.length ≤ k → (joinLines ls).length ≤ j) := by
  induction ls generalizing j with
  | nil => exact ⟨0, [], by simp [joinLines], by simp, by simp, by simp [joinLines]⟩
  | cons l ls ih =>
    have hj : joinLines (l :: ls) = l ++ newline :: joinLines ls := by simp [joinLines]
    have hl : newline ∉ l := fun hmem => (h l (by simp) newline hmem).1 rfl
    by_cases hle : j ≤ l.length
    · refine ⟨0, l.take j, ?_, fun hmem => hl (List.mem_of_mem_take hmem), by simp, by simp⟩
      rw [hj, List.take_append_of_le_length hle]
      simp [joinLines]
    · obtain ⟨i, rfl⟩ : ∃ i, j = l.length + 1 + i := ⟨j - l.length - 1, by omega⟩
      obtain ⟨k, torn, htake, htorn, hk, hlen⟩ := ih (fun x hx => h x (by simp [hx])) i
      refine ⟨k + 1, torn, ?_, htorn, ?_, ?_⟩
      · have hcut : l.length + 1 + i = l.length + (1 + i) := by omega
        rw [hj, hcut, List.take_length_add_append, Nat.add_comm 1 i, List.take_succ_cons, htake]
        simp [joinLines]
      · simpa using hk
      · intro hle'
        have := hlen (by simpa using hle')
        rw [hj]
        simp only [List.length_append, List.length_cons]
        omega

end Lines

/-! ### UTF-8 -/

section Utf8

lemma decode_encode (t : List Char) : decode (encode t) = some t := by
  have h : (encode t).toByteArray = t.utf8Encode := rfl
  rw [decode, h, List.utf8Decode?_utf8Encode]
  simp

/-- A byte of a character beyond ASCII is not one of the ASCII controls. -/
lemma encode_line {t : List Char} (h : ∀ c ∈ t, 32 ≤ c.toNat) : Line (encode t) := by
  have hchar : ∀ c : Char, 32 ≤ c.toNat → ∀ b ∈ String.utf8EncodeChar c, 32 ≤ b.toNat := by
    intro c hc b hb
    have hv : c.val.toNat = c.toNat := rfl
    unfold String.utf8EncodeChar at hb
    simp only [hv] at hb
    split_ifs at hb
    · obtain rfl := List.mem_singleton.mp hb
      rw [UInt8.toNat_ofNat']
      omega
    all_goals
      simp only [List.mem_cons, List.not_mem_nil, or_false] at hb
      -- the bytes of a longer sequence are at least 128
      rcases hb with rfl | rfl | rfl | rfl <;> rw [UInt8.toNat_ofNat'] <;> omega
  intro b hb
  obtain ⟨c, hc, hb⟩ := List.mem_flatMap.mp hb
  have h32 := hchar c (h c hc) b hb
  constructor
  · rintro rfl
    exact absurd h32 (by decide)
  · rintro rfl
    exact absurd h32 (by decide)

end Utf8

end Bytes

end PumpGrok
