import PumpGrok.Core.Types
import PumpGrok.Lib.Positional

/-!
Ids of 26 letters: the milliseconds of a clock reading over 80 drawn bits, in base 32. A factory
never gives the same value twice: when the clock stands or goes back, it adds one to its last.
-/

namespace PumpGrok

/-- Crockford's digits: no `I`, `L`, `O` or `U`. -/
def crockfordDigits : Text := "0123456789ABCDEFGHJKMNPQRSTVWXYZ".toList

def crockfordDigit (i : ℕ) : Char := crockfordDigits.getD i '0'

/-- The letters the loop collects, least significant first. -/
def crockfordLoop : ℕ → ℕ → Text
  | 0, _ => []
  | w + 1, value => crockfordDigit (value &&& 31) :: crockfordLoop w (value >>> 5)

def crockford (value width : ℕ) : Text := (crockfordLoop width value).reverse

/-- The letters of `[0-9A-HJKMNP-TV-Z]`. -/
def ulidLetter (c : Char) : Bool :=
  '0' ≤ c && c ≤ '9' || 'A' ≤ c && c ≤ 'H' || c = 'J' || c = 'K' || c = 'M' || c = 'N' ||
    'P' ≤ c && c ≤ 'T' || 'V' ≤ c && c ≤ 'Z'

/-- `ULID_RE`. -/
def ulidRe (text : Text) : Bool := text.length = 26 && text.all ulidLetter

structure IdFactory where
  last : ℕ := 0

namespace IdFactory

/-- The milliseconds of a reading, over the drawn bits. -/
def candidate (now : ℚ) (bits : BitVec 80) : ℤ := truncInt (now * 1000) * 2 ^ 80 + bits.toNat

/-- The next value: the candidate, or one more than the last when that is not an advance. -/
def next (f : IdFactory) (now : ℚ) (bits : BitVec 80) : ℕ :=
  if candidate now bits ≤ f.last then f.last + 1 else (candidate now bits).toNat

def ulid (f : IdFactory) (now : ℚ) (bits : BitVec 80) : Text × IdFactory :=
  (crockford (f.next now bits) 26, { last := f.next now bits })

/-- The ids of successive calls, each with its clock reading and its draw. -/
def ids (f : IdFactory) : List (ℚ × BitVec 80) → List Text
  | [] => []
  | (now, bits) :: calls => (f.ulid now bits).1 :: ids (f.ulid now bits).2 calls

/-- The values behind them. -/
def values (f : IdFactory) : List (ℚ × BitVec 80) → List ℕ
  | [] => []
  | (now, bits) :: calls => f.next now bits :: values { last := f.next now bits } calls

end IdFactory

/-! ### The encoding -/

lemma crockford_eq_numeral (value width : ℕ) :
    crockford value width = Positional.numeral crockfordDigit 32 width value := by
  unfold crockford
  induction width generalizing value with
  | zero => rfl
  | succ w ih =>
    have hand : value &&& 31 = value % 32 := Nat.and_two_pow_sub_one_eq_mod value 5
    have hshift : value >>> 5 = value / 32 := Nat.shiftRight_eq_div_pow value 5
    rw [crockfordLoop, List.reverse_cons, ih, hand, hshift, Positional.numeral]

lemma crockfordDigit_lt_iff :
    ∀ i j, i < 32 → j < 32 → (crockfordDigit i < crockfordDigit j ↔ i < j) := by
  have hall : ∀ i j : Fin 32, crockfordDigit i < crockfordDigit j ↔ i < j := by decide
  intro i j hi hj
  exact hall ⟨i, hi⟩ ⟨j, hj⟩

/-- **Every encoding is an id**: 26 letters of the alphabet. -/
lemma crockford_ulidRe (value : ℕ) : (crockford value 26).length = 26 ∧
    (∀ c ∈ crockford value 26, c ∈ crockfordDigits) ∧ ulidRe (crockford value 26) = true := by
  have hletters : ∀ d : Fin 32, crockfordDigit d ∈ crockfordDigits ∧
      ulidLetter (crockfordDigit d) = true := by decide
  have hlength : (crockford value 26).length = 26 := by simp [crockford_eq_numeral]
  have hmem : ∀ c ∈ crockford value 26, ∃ d < 32, c = crockfordDigit d := by
    intro c hc
    rw [crockford_eq_numeral] at hc
    exact Positional.mem_numeral (by norm_num) hc
  refine ⟨hlength, fun c hc => ?_, ?_⟩
  · obtain ⟨d, hd, rfl⟩ := hmem c hc
    exact (hletters ⟨d, hd⟩).1
  · rw [ulidRe, hlength, Bool.and_eq_true, List.all_eq_true]
    refine ⟨rfl, fun c hc => ?_⟩
    obtain ⟨d, hd, rfl⟩ := hmem c hc
    exact (hletters ⟨d, hd⟩).2

/-- As strings the encodings are ordered as the values, below the 130 bits that 26 letters hold. -/
lemma crockford_lt_iff {u v : ℕ} (hu : u < 2 ^ 130) (hv : v < 2 ^ 130) :
    crockford u 26 < crockford v 26 ↔ u < v := by
  rw [crockford_eq_numeral, crockford_eq_numeral]
  exact Positional.numeral_lt_iff crockfordDigit_lt_iff (by omega) (by omega)

lemma crockford_inj {u v : ℕ} (hu : u < 2 ^ 130) (hv : v < 2 ^ 130) :
    crockford u 26 = crockford v 26 ↔ u = v := by
  rw [crockford_eq_numeral, crockford_eq_numeral]
  exact Positional.numeral_inj crockfordDigit_lt_iff (by omega) (by omega)

/-- Past them the encoding starts again. -/
lemma crockford_wraps : crockford (2 ^ 130) 26 = crockford 0 26 := by
  rw [crockford_eq_numeral, crockford_eq_numeral,
    ← Positional.numeral_mod 26 (2 ^ 130), ← Positional.numeral_mod 26 0]
  rfl

/-! ### The values of a factory -/

lemma truncInt_lt {q : ℚ} {n : ℤ} (hn : 0 < n) (h : q < n) : truncInt q < n := by
  have hden : (0 : ℤ) < q.den := by exact_mod_cast q.den_pos
  have hnum : q.num < n * q.den := by
    rw [← Rat.num_div_den q, div_lt_iff₀ (by exact_mod_cast hden)] at h
    exact_mod_cast h
  unfold truncInt
  rcases le_or_gt 0 q.num with hq | hq
  · rw [Int.tdiv_eq_ediv_of_nonneg hq]
    exact Int.ediv_lt_of_lt_mul hden hnum
  · have hneg : q.num.tdiv q.den ≤ 0 := by
      have := Int.tdiv_nonneg (a := -q.num) (b := q.den) (by omega) hden.le
      rw [Int.neg_tdiv] at this
      omega
    omega

namespace IdFactory

/-- A reading before the time limit of the format. -/
def InTime (c : ℚ × BitVec 80) : Prop := c.1 * 1000 < 2 ^ 48

lemma candidate_lt {c : ℚ × BitVec 80} (h : InTime c) : candidate c.1 c.2 < 2 ^ 128 := by
  have hms : truncInt (c.1 * 1000) < 2 ^ 48 := truncInt_lt (by norm_num) (by exact_mod_cast h)
  have hbits : c.2.toNat < 2 ^ 80 := c.2.isLt
  unfold candidate
  omega

lemma ids_eq_values (f : IdFactory) (calls : List (ℚ × BitVec 80)) :
    f.ids calls = (f.values calls).map (crockford · 26) := by
  induction calls generalizing f with
  | nil => rfl
  | cons c calls ih => rw [ids, values, List.map_cons, ih]; rfl

lemma last_lt_next (f : IdFactory) (now : ℚ) (bits : BitVec 80) : f.last < f.next now bits := by
  unfold next
  split_ifs with h <;> omega

/-- **The values only go up**, whatever the clock and the draws. -/
lemma values_increasing (f : IdFactory) (calls : List (ℚ × BitVec 80)) :
    (f.last :: f.values calls).Pairwise (· < ·) := by
  induction calls generalizing f with
  | nil => simp [values]
  | cons c calls ih =>
    have hrest := ih { last := f.next c.1 c.2 }
    rw [values, List.pairwise_cons]
    refine ⟨fun v hv => ?_, hrest⟩
    have hfirst := f.last_lt_next c.1 c.2
    rcases List.mem_cons.mp hv with rfl | hv
    · exact hfirst
    · exact hfirst.trans ((List.pairwise_cons.mp hrest).1 v hv)

/-- One call adds at most one to the largest value a reading and a draw can make. -/
lemma values_bounded {f : IdFactory} {calls : List (ℚ × BitVec 80)} {b : ℕ}
    (hlast : f.last < b) (hb : 2 ^ 128 ≤ b + 1) (h : ∀ c ∈ calls, InTime c) :
    ∀ v ∈ f.values calls, v < b + calls.length := by
  induction calls generalizing f b with
  | nil => simp [values]
  | cons c calls ih =>
    have hc := candidate_lt (h c List.mem_cons_self)
    have hfirst : f.next c.1 c.2 < b + 1 := by
      unfold next
      split_ifs with hle <;> omega
    intro v hv
    rw [values] at hv
    rw [List.length_cons]
    rcases List.mem_cons.mp hv with rfl | hv
    · omega
    · have := ih (b := b + 1) hfirst (by omega)
        (fun d hd => h d (List.mem_cons_of_mem _ hd)) v hv
      omega

/-- **Ids are unique and ordered**, for as many calls as 26 letters can number. -/
theorem ids_increasing (calls : List (ℚ × BitVec 80)) (hcalls : ∀ c ∈ calls, InTime c)
    (hlength : calls.length ≤ 3 * 2 ^ 128 + 1) :
    (∀ id ∈ ids {} calls, id.length = 26 ∧ (∀ c ∈ id, c ∈ crockfordDigits) ∧ ulidRe id = true) ∧
      (ids {} calls).Nodup ∧ (ids {} calls).Pairwise (· < ·) ∧
      ∀ u v, u < 2 ^ 130 → v < 2 ^ 130 → crockford u 26 = crockford v 26 → u = v := by
  have hfit : ∀ v ∈ values {} calls, v < 2 ^ 130 := by
    intro v hv
    have := values_bounded (f := {}) (b := 2 ^ 128 - 1) (by norm_num) (by norm_num) hcalls v hv
    omega
  have hlt : (ids {} calls).Pairwise (· < ·) := by
    rw [ids_eq_values, List.pairwise_map]
    exact (List.pairwise_cons.mp (values_increasing {} calls)).2.imp_of_mem
      fun hu hv h => (crockford_lt_iff (hfit _ hu) (hfit _ hv)).mpr h
  refine ⟨fun id hid => ?_, hlt.imp fun h => ne_of_lt h, hlt,
    fun u v hu hv h => (crockford_inj hu hv).mp h⟩
  rw [ids_eq_values] at hid
  obtain ⟨v, -, rfl⟩ := List.mem_map.mp hid
  exact crockford_ulidRe v

/-- A clock that stands, then goes back behind its start. -/
theorem ids_increasing_sample :
    (∀ id ∈ ids {} [(5, 7), (5, 7), (-1, 0)],
        id.length = 26 ∧ (∀ c ∈ id, c ∈ crockfordDigits) ∧ ulidRe id = true) ∧
      (ids {} [(5, 7), (5, 7), (-1, 0)]).Nodup ∧
      (ids {} [(5, 7), (5, 7), (-1, 0)]).Pairwise (· < ·) ∧
      ∀ u v, u < 2 ^ 130 → v < 2 ^ 130 → crockford u 26 = crockford v 26 → u = v :=
  ids_increasing _ (by simp [InTime]; norm_num) (by norm_num)

/-! ### One call more -/

/-- The last millisecond of the format and the greatest draw. -/
def lastCall : ℚ × BitVec 80 := ((2 ^ 48 - 1) / 1000, BitVec.allOnes 80)

lemma candidate_lastCall : candidate lastCall.1 lastCall.2 = 2 ^ 128 - 1 := by
  have hms : truncInt (((2 : ℚ) ^ 48 - 1) / 1000 * 1000) = 2 ^ 48 - 1 := by
    rw [show ((2 : ℚ) ^ 48 - 1) / 1000 * 1000 = ((2 ^ 48 - 1 : ℤ) : ℚ) by push_cast; ring]
    simp [truncInt]
  simp only [candidate, lastCall, hms, BitVec.toNat_allOnes]
  norm_num

lemma values_lastCall {f : IdFactory} (n : ℕ) (h : 2 ^ 128 - 1 ≤ f.last + 1) :
    f.values (List.replicate n lastCall) = List.range' (f.last + 1) n := by
  induction n generalizing f with
  | zero => rfl
  | succ n ih =>
    have hnext : f.next lastCall.1 lastCall.2 = f.last + 1 := by
      unfold next
      rw [candidate_lastCall]
      split_ifs with hle <;> omega
    rw [List.replicate_succ, values, List.range'_succ]
    simp only [hnext]
    rw [ih (by simp only; omega)]

lemma ids_lastCall (n : ℕ) :
    ids {} (List.replicate (n + 1) lastCall) =
      (List.range' (2 ^ 128 - 1) (n + 1)).map (crockford · 26) := by
  have hfirst : ({} : IdFactory).next lastCall.1 lastCall.2 = 2 ^ 128 - 1 := by
    unfold next
    rw [candidate_lastCall]
    rfl
  rw [ids_eq_values, List.replicate_succ, values, hfirst, List.range'_succ,
    values_lastCall n (by simp only; omega)]

/-- **One call too many**: the clock stands in its last millisecond, every draw is the greatest,
and the last of these ids is the least of all. -/
theorem ids_wrap : (∀ c ∈ List.replicate (3 * 2 ^ 128 + 1 + 1) lastCall, InTime c) ∧
    ¬ (ids {} (List.replicate (3 * 2 ^ 128 + 1 + 1) lastCall)).Pairwise (· < ·) := by
  refine ⟨fun c hc => ?_, fun h => ?_⟩
  · rw [List.eq_of_mem_replicate hc]
    simp only [InTime, lastCall]
    norm_num
  · rw [ids_lastCall, List.pairwise_map, List.pairwise_iff_getElem] at h
    have hends := h 0 (3 * 2 ^ 128 + 1) (by rw [List.length_range']; omega)
      (by rw [List.length_range']; omega) (by norm_num)
    rw [List.getElem_range', List.getElem_range',
      show 2 ^ 128 - 1 + 1 * (3 * 2 ^ 128 + 1) = 2 ^ 130 by norm_num, crockford_wraps,
      crockford_lt_iff (by norm_num) (by norm_num)] at hends
    exact absurd hends (by norm_num)

end IdFactory

end PumpGrok
