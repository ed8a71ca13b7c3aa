import Mathlib

/-!
Text functions on lists of characters: whitespace, stripping, words and lines, with the
conventions of Python's `str`.
-/

namespace PumpGrok

namespace PyText

def isSpace (c : Char) : Bool :=
  c.toNat ∈ [9, 10, 11, 12, 13, 28, 29, 30, 31, 32, 0x85, 0xa0, 0x1680, 0x2000, 0x2001, 0x2002,
    0x2003, 0x2004, 0x2005, 0x2006, 0x2007, 0x2008, 0x2009, 0x200a, 0x2028, 0x2029, 0x202f,
    0x205f, 0x3000]

/-- The characters that end a line, the newline pair aside. -/
def isLineEnd (c : Char) : Bool :=
  c.toNat ∈ [10, 11, 12, 13, 28, 29, 30, 0x85, 0x2028, 0x2029]

def lstrip (t : List Char) : List Char := t.dropWhile isSpace

def rstrip (t : List Char) : List Char := (t.reverse.dropWhile isSpace).reverse

def strip (t : List Char) : List Char := rstrip (lstrip t)

/-- The first word and the rest after it. -/
def takeWord (t : List Char) : List Char × List Char := (t.span fun c => !isSpace c)

/-- Lines without their ends; a carriage return takes a newline after it along. The first
argument is the current line in reverse, the flag says that a carriage return just ended one. -/
def splitLinesAux : List Char → Bool → List Char → List (List Char)
  | cur, _, [] => if cur = [] then [] else [cur.reverse]
  | cur, cr, c :: r =>
    if cr && c.toNat = 10 then splitLinesAux cur false r
    else if isLineEnd c then cur.reverse :: splitLinesAux [] (c.toNat = 13) r
    else splitLinesAux (c :: cur) false r

def splitLines (t : List Char) : List (List Char) := splitLinesAux [] false t

/-- Drop a prefix, if it is there. -/
def dropPrefix (p t : List Char) : Option (List Char) :=
  if p.isPrefixOf t then some (t.drop p.length) else none

/-- Drop a run of one or more whitespace characters. -/
def dropSpaces (t : List Char) : Option (List Char) :=
  match t with
  | c :: r => if isSpace c then some (lstrip r) else none
  | [] => none

/-- The zeros of the runs of decimal digits. -/
def digitZeros : List ℕ :=
  [0x30, 0x660, 0x6f0, 0x7c0, 0x966, 0x9e6, 0xa66, 0xae6, 0xb66, 0xbe6, 0xc66, 0xce6, 0xd66,
    0xde6, 0xe50, 0xed0, 0xf20, 0x1040, 0x1090, 0x17e0, 0x1810, 0x1946, 0x19d0, 0x1a80, 0x1a90,
    0x1b50, 0x1bb0, 0x1c40, 0x1c50, 0xa620, 0xa8d0, 0xa900, 0xa9d0, 0xa9f0, 0xaa50, 0xabf0,
    0xff10, 0x104a0, 0x10d30, 0x11066, 0x110f0, 0x11136, 0x111d0, 0x112f0, 0x11450, 0x114d0,
    0x11650, 0x116c0, 0x11730, 0x118e0, 0x11950, 0x11c50, 0x11d50, 0x11da0, 0x11f50, 0x16a60,
    0x16ac0, 0x16b50, 0x1d7ce, 0x1d7d8, 0x1d7e2, 0x1d7ec, 0x1d7f6, 0x1e140, 0x1e2f0, 0x1e4f0,
    0x1e950, 0x1fbf0]

/-- The value of a decimal digit, in whatever script. -/
def digitValue (c : Char) : Option ℕ :=
  (digitZeros.find? fun z => z ≤ c.toNat && c.toNat < z + 10).map fun z => c.toNat - z

def isDecimal (c : Char) : Bool := (digitValue c).isSome

/-- The number a text of decimal digits stands for. -/
def intOf (t : List Char) : ℕ := t.foldl (fun n c => 10 * n + (digitValue c).getD 0) 0

/-! ### Lines and stripping -/

section Lemmas

variable {s t : List Char}

/-- The first line runs to the first line end. -/
lemma headD_splitLines (t : List Char) :
    (splitLines t).headD [] = t.takeWhile fun c => !isLineEnd c := by
  have haux : ∀ cur, (splitLinesAux cur false t).headD [] =
      cur.reverse ++ t.takeWhile fun c => !isLineEnd c := by
    induction t with
    | nil =>
      intro cur
      by_cases hc : cur = [] <;> simp [splitLinesAux, hc]
    | cons c r ih =>
      intro cur
      rw [splitLinesAux, Bool.false_and, if_neg Bool.false_ne_true]
      by_cases hc : isLineEnd c = true
      · simp [hc]
      · rw [if_neg hc, ih (c :: cur)]
        simp [hc]
  exact haux []

lemma length_lstrip_le (t : List Char) : (lstrip t).length ≤ t.length :=
  (List.dropWhile_suffix _).length_le

lemma length_rstrip_le (t : List Char) : (rstrip t).length ≤ t.length := by
  simpa [rstrip, lstrip] using length_lstrip_le t.reverse

lemma length_strip_le (t : List Char) : (strip t).length ≤ t.length :=
  (length_rstrip_le _).trans (length_lstrip_le t)

lemma rstrip_isPrefix (t : List Char) : rstrip t <+: t := by
  rw [← List.reverse_suffix, rstrip, List.reverse_reverse]
  exact List.dropWhile_suffix _

/-- Stripping a text on the right stops in its last part that is not blank. -/
lemma rstrip_append (s t : List Char) :
    rstrip (s ++ t) = if rstrip t = [] then rstrip s else s ++ rstrip t := by
  simp only [rstrip, List.reverse_append, List.reverse_eq_nil_iff]
  rw [List.dropWhile_append]
  by_cases h : t.reverse.dropWhile isSpace = []
  · simp [h]
  · simp [h]

lemma lstrip_cons_of_not_space {c : Char} (h : isSpace c = false) : lstrip (c :: t) = c :: t := by
  simp [lstrip, h]

/-! ### Decimal digits -/

lemma digitValue_lt {c : Char} {d : ℕ} (h : digitValue c = some d) : d < 10 := by
  unfold digitValue at h
  obtain ⟨z, hz, rfl⟩ := Option.map_eq_some_iff.mp h
  have := List.find?_some hz
  simp only [Bool.and_eq_true, decide_eq_true_eq] at this
  omega

lemma digitValue_of_isDigit {c : Char} (h : c.isDigit = true) :
    digitValue c = some (c.toNat - 48) := by
  have hrange : 48 ≤ c.toNat ∧ c.toNat ≤ 57 := by
    simpa [Char.isDigit, UInt32.le_iff_toNat_le] using h
  unfold digitValue digitZeros
  rw [List.find?_cons_of_pos (by simp; omega)]
  rfl

lemma isDecimal_of_isDigit {c : Char} (h : c.isDigit = true) : isDecimal c = true := by
  rw [isDecimal, digitValue_of_isDigit h]
  rfl

lemma intOf_snoc (t : List Char) (c : Char) :
    intOf (t ++ [c]) = 10 * intOf t + (digitValue c).getD 0 := by
  rw [intOf, List.foldl_append]
  rfl

/-- A text of `n` digits stands for a number below the `n`-th power of ten. -/
lemma intOf_lt (t : List Char) : intOf t < 10 ^ t.length := by
  induction t using List.reverseRecOn with
  | nil => simp [intOf]
  | append_singleton t c ih =>
    have hd : (digitValue c).getD 0 < 10 := by
      rcases h : digitValue c with - | d
      · simp
      · exact digitValue_lt h
    rw [intOf_snoc, List.length_append, List.length_singleton, pow_succ]
    omega

lemma intOf_eq_ofDigitChars (h : ∀ c ∈ t, c.isDigit = true) :
    intOf t = Nat.ofDigitChars 10 t 0 := by
  induction t using List.reverseRecOn with
  | nil => rfl
  | append_singleton t c ih =>
    have hc : c.isDigit = true := h c (by simp)
    rw [intOf_snoc, ih fun d hd => h d (by simp [hd]), Nat.ofDigitChars_append,
      digitValue_of_isDigit hc]
    rfl

end Lemmas

example : splitLines "ab\r\nc\n\nd\r".toList = ["ab".toList, "c".toList, [], "d".toList] := by
  decide

example : strip " \t a b\n".toList = "a b".toList := by decide

end PyText

end PumpGrok
