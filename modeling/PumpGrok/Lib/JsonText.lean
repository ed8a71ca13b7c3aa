import Mathlib
import PumpGrok.Lib.Json

/-!
JSON values, their dumps in several styles, and a reader of such texts. What is dumped is read
back as the value it came from, whatever follows it.

A float is kept as its text: the digits, the fraction and the exponent.
-/

namespace PumpGrok

namespace Json

/-! ### Values -/

abbrev Digit : Type := {c : Char // c.isDigit}

/-- The text of a float that is a number, with a fraction or an exponent. -/
structure FloatText where
  negative : Bool
  whole : ℕ
  fraction : List Digit
  /-- its sign and its digits -/
  exponent : Option (Bool × Digit × List Digit)
  fractional : fraction ≠ [] ∨ exponent ≠ none

inductive Float where
  | finite (t : FloatText)
  | nan
  | infinity (negative : Bool)

/-- A value. An object is the list of its members. -/
inductive Value where
  | null
  | bool (b : Bool)
  | num (n : ℤ)
  | float (x : Float)
  | str (t : List Char)
  | arr (xs : List Value)
  | obj (ms : List (List Char × Value))

/-! ### Dumps -/

/-- Whether a dump keeps to printable ASCII, and whether a space follows its separators. -/
structure Style where
  ascii : Bool
  spaced : Bool

namespace Style

def space (y : Style) : List Char := if y.spaced then [' '] else []

def comma (y : Style) : List Char := ',' :: y.space

def colon (y : Style) : List Char := ':' :: y.space

end Style

/-- One character of a string: beyond ASCII it may stand for itself. -/
def escapeIn (ascii : Bool) (c : Char) : List Char :=
  if ascii ∨ c.toNat < 32 ∨ c = '"' ∨ c = '\\' then escapeChar c else [c]

def quoteIn (ascii : Bool) (t : List Char) : List Char :=
  '"' :: (t.flatMap (escapeIn ascii) ++ ['"'])

def digits (ds : List Digit) : List Char := ds.map Subtype.val

def signed (negative : Bool) (t : List Char) : List Char := if negative then '-' :: t else t

def FloatText.fractionText (t : FloatText) : List Char :=
  if t.fraction = [] then [] else '.' :: digits t.fraction

def FloatText.exponentText (t : FloatText) : List Char :=
  match t.exponent with
  | none => []
  | some (negative, d, ds) => 'e' :: (if negative then '-' else '+') :: digits (d :: ds)

def Float.dump : Float → List Char
  | .finite t =>
    signed t.negative (Nat.toDigits 10 t.whole ++ (t.fractionText ++ t.exponentText))
  | .nan => ['N', 'a', 'N']
  | .infinity negative => signed negative "Infinity".toList

mutual

def dumps (y : Style) : Value → List Char
  | .null => "null".toList
  | .bool true => "true".toList
  | .bool false => "false".toList
  | .num n => decimal n
  | .float x => x.dump
  | .str t => quoteIn y.ascii t
  | .arr [] => ['[', ']']
  | .arr (v :: vs) => '[' :: (dumps y v ++ dumpItems y vs)
  | .obj [] => ['{', '}']
  | .obj ((k, v) :: ms) =>
    '{' :: (quoteIn y.ascii k ++ (y.colon ++ (dumps y v ++ dumpMembers y ms)))

/-- The items after the first, and the end of the array. -/
def dumpItems (y : Style) : List Value → List Char
  | [] => [']']
  | v :: vs => y.comma ++ (dumps y v ++ dumpItems y vs)

def dumpMembers (y : Style) : List (List Char × Value) → List Char
  | [] => ['}']
  | (k, v) :: ms => y.comma ++ (quoteIn y.ascii k ++ (y.colon ++ (dumps y v ++ dumpMembers y ms)))

end

/-! ### The reader -/

def isWs (c : Char) : Bool := c = ' ' || c = '\t' || c = '\n' || c = '\r'

def skipWs (t : List Char) : List Char := t.dropWhile isWs

/-- A string after its opening quote, of so many characters at most. -/
def scanString : ℕ → List Char → Option (List Char × List Char)
  | 0, _ => none
  | _ + 1, [] => none
  | n + 1, c :: r =>
    if c = '"' then some ([], r)
    else do
      let (d, r) ← scanChar (c :: r)
      let (t, r) ← scanString n r
      some (d :: t, r)

def spanDigits : List Char → List Digit × List Char
  | [] => ([], [])
  | c :: r =>
    if h : c.isDigit then ((⟨c, h⟩ :: (spanDigits r).1), (spanDigits r).2) else ([], c :: r)

def scanSign (cs : List Char) : Bool × List Char :=
  match cs with
  | [] => (false, [])
  | c :: r => if c = '-' then (true, r) else (false, c :: r)

/-- The digits before a point: a lone zero, or no zero in front. -/
def scanWhole : List Char → Option (ℕ × List Char)
  | [] => none
  | c :: r =>
    if c = '0' then some (0, r)
    else if c.isDigit then
      some (Nat.ofDigitChars 10 (digits (spanDigits (c :: r)).1) 0, (spanDigits (c :: r)).2)
    else none

def scanFraction (cs : List Char) : List Digit × List Char :=
  match cs with
  | [] => ([], [])
  | c :: r =>
    if c = '.' ∧ (spanDigits r).1 ≠ [] then spanDigits r else ([], c :: r)

def scanExponent (cs : List Char) : Option (Bool × Digit × List Digit) × List Char :=
  match cs with
  | [] => (none, [])
  | c :: r =>
    let unsigned := if r.head? = some '+' ∨ r.head? = some '-' then r.tail else r
    match spanDigits unsigned with
    | (d :: ds, r') =>
      if c = 'e' ∨ c = 'E' then (some (decide (r.head? = some '-'), d, ds), r') else (none, c :: r)
    | ([], _) => (none, c :: r)

def scanNumber (cs : List Char) : Option (Value × List Char) := do
  let (negative, r) := scanSign cs
  let (whole, r) ← scanWhole r
  let (fraction, r) := scanFraction r
  let (exponent, r) := scanExponent r
  if h : fraction ≠ [] ∨ exponent ≠ none then
    some (.float (.finite ⟨negative, whole, fraction, exponent, h⟩), r)
  else some (.num (if negative then -whole else whole), r)

mutual

def scanOnce : ℕ → List Char → Option (Value × List Char)
  | 0, _ => none
  | _ + 1, [] => none
  | n + 1, c :: r =>
    if c = '"' then (scanString (r.length + 1) r).map fun p => (.str p.1, p.2)
    else if c = '{' then
      if (skipWs r).head? = some '}' then some (.obj [], (skipWs r).tail)
      else (scanMembers n (skipWs r)).map fun p => (.obj p.1, p.2)
    else if c = '[' then
      if (skipWs r).head? = some ']' then some (.arr [], (skipWs r).tail)
      else (scanItems n (skipWs r)).map fun p => (.arr p.1, p.2)
    else if c = 'n' then (keyword "ull".toList r).map fun r => (.null, r)
    else if c = 't' then (keyword "rue".toList r).map fun r => (.bool true, r)
    else if c = 'f' then (keyword "alse".toList r).map fun r => (.bool false, r)
    else if c = 'N' then (keyword "aN".toList r).map fun r => (.float .nan, r)
    else if c = 'I' then (keyword "nfinity".toList r).map fun r => (.float (.infinity false), r)
    else if c = '-' ∧ r.head? = some 'I' then
      (keyword "Infinity".toList r).map fun r => (.float (.infinity true), r)
    else scanNumber (c :: r)

def scanItems : ℕ → List Char → Option (List Value × List Char)
  | 0, _ => none
  | n + 1, r => do
    let (v, r) ← scanOnce n r
    match skipWs r with
    | [] => none
    | c :: r =>
      if c = ']' then some ([v], r)
      else if c = ',' then (scanItems n (skipWs r)).map fun p => (v :: p.1, p.2)
      else none

def scanMembers : ℕ → List Char → Option (List (List Char × Value) × List Char)
  | 0, _ => none
  | n + 1, r => do
    let r ← keyword ['"'] r
    let (k, r) ← scanString (r.length + 1) r
    let r ← keyword [':'] (skipWs r)
    let (v, r) ← scanOnce n (skipWs r)
    match skipWs r with
    | [] => none
    | c :: r =>
      if c = '}' then some ([(k, v)], r)
      else if c = ',' then (scanMembers n (skipWs r)).map fun p => ((k, v) :: p.1, p.2)
      else none

end

/-- The value a text holds. Each call of the reader consumes a character, so that the length of
the text bounds how deep it goes. -/
def loads (t : List Char) : Option Value := do
  let (v, r) ← scanOnce (2 * t.length + 1) (skipWs t)
  if skipWs r = [] then some v else none

/-! ### Reading back -/

/-- What follows a value does not carry a number on. -/
def Ends (r : List Char) : Prop :=
  ∀ c ∈ r.head?, ¬ c.isDigit ∧ c ≠ '.' ∧ c ≠ 'e' ∧ c ≠ 'E'

section Numbers

variable {r : List Char}

lemma ends_nil : Ends [] := by
  intro c hc
  simp at hc

lemma spanDigits_digits (ds : List Digit) (hr : ∀ c ∈ r.head?, ¬ c.isDigit) :
    spanDigits (digits ds ++ r) = (ds, r) := by
  induction ds with
  | nil =>
    rcases r with - | ⟨c, r⟩
    · rfl
    · have hc : ¬ c.isDigit := hr c (by simp)
      simp [digits, spanDigits, hc]
  | cons d ds ih =>
    have hd : digits (d :: ds) ++ r = d.val :: (digits ds ++ r) := rfl
    rw [hd, spanDigits, dif_pos d.property, ih]

/-- The digits of a number, each with its proof. -/
lemma toDigits_eq_digits (n : ℕ) : ∃ ds : List Digit, Nat.toDigits 10 n = digits ds := by
  have hd : ∀ c ∈ Nat.toDigits 10 n, c.isDigit := fun c hc =>
    Nat.isDigit_of_mem_toDigits (by norm_num) (by norm_num) hc
  exact ⟨(Nat.toDigits 10 n).attachWith _ hd, by simp [digits]⟩

/-- The first digit of a positive number is not a zero. -/
lemma head_toDigits {n : ℕ} (h : 0 < n) :
    ∃ c t, Nat.toDigits 10 n = c :: t ∧ c ≠ '0' := by
  induction n using Nat.strong_induction_on with
  | _ n ih =>
    by_cases hn : n < 10
    · refine ⟨n.digitChar, [], Nat.toDigits_of_lt_base hn, ?_⟩
      interval_cases n <;> decide
    · obtain ⟨c, t, ht, hc⟩ := ih (n / 10) (by omega) (by omega)
      refine ⟨c, t ++ [(n % 10).digitChar], ?_, hc⟩
      rw [Nat.toDigits_of_base_le (by norm_num) (by omega), ht, List.cons_append]

lemma head_toDigits_isDigit (n : ℕ) : ∃ c t, Nat.toDigits 10 n = c :: t ∧ c.isDigit := by
  rcases h : Nat.toDigits 10 n with - | ⟨c, t⟩
  · exact absurd h Nat.toDigits_ne_nil
  · refine ⟨c, t, rfl, ?_⟩
    exact Nat.isDigit_of_mem_toDigits (b := 10) (by norm_num) (by norm_num)
      (h ▸ List.mem_cons_self)

lemma scanWhole_toDigits (n : ℕ) (hr : ∀ c ∈ r.head?, ¬ c.isDigit) :
    scanWhole (Nat.toDigits 10 n ++ r) = some (n, r) := by
  rcases Nat.eq_zero_or_pos n with rfl | hn
  · simp [scanWhole]
  · obtain ⟨c, t, ht, hc⟩ := head_toDigits hn
    obtain ⟨c', t', ht', hd⟩ := head_toDigits_isDigit n
    obtain ⟨rfl, rfl⟩ := List.cons.inj (ht'.symm.trans ht)
    obtain ⟨ds, hds⟩ := toDigits_eq_digits n
    have hspan : spanDigits (c' :: (t' ++ r)) = (ds, r) := by
      rw [← List.cons_append, ← ht', hds]
      exact spanDigits_digits ds hr
    rw [ht', List.cons_append, scanWhole, if_neg hc, if_pos hd, hspan, ← hds,
      Nat.ofDigitChars_ten_toDigits]

lemma scanSign_signed (negative : Bool) {t : List Char} (ht : t.head? ≠ some '-') :
    scanSign (signed negative t) = (negative, t) := by
  cases negative with
  | true => rfl
  | false =>
    rcases t with - | ⟨c, t⟩
    · rfl
    · have hc : c ≠ '-' := fun e => ht (by rw [e]; rfl)
      simp [signed, scanSign, hc]

lemma scanExponent_ends (hr : Ends r) : scanExponent r = (none, r) := by
  rcases r with - | ⟨c, r⟩
  · rfl
  · obtain ⟨-, -, he, hE⟩ := hr c (by simp)
    simp only [scanExponent, he, hE, or_self, if_false]
    split <;> rfl

lemma scanExponent_text (t : FloatText) (hr : Ends r) :
    scanExponent (t.exponentText ++ r) = (t.exponent, r) := by
  unfold FloatText.exponentText
  rcases t.exponent with - | ⟨negative, d, ds⟩
  · exact scanExponent_ends hr
  · have hspan : spanDigits (digits (d :: ds) ++ r) = (d :: ds, r) :=
      spanDigits_digits _ fun c hc => (hr c hc).1
    cases negative <;> simp [scanExponent, hspan]

lemma exponent_head (t : FloatText) (hr : Ends r) :
    ∀ c ∈ (t.exponentText ++ r).head?, ¬ c.isDigit ∧ c ≠ '.' := by
  unfold FloatText.exponentText
  rcases t.exponent with - | ⟨negative, d, ds⟩
  · exact fun c hc => ⟨(hr c hc).1, (hr c hc).2.1⟩
  · intro c hc
    obtain rfl : c = 'e' := by simpa [eq_comm] using hc
    decide

lemma fraction_head (t : FloatText) (hr : Ends r) :
    ∀ c ∈ (t.fractionText ++ (t.exponentText ++ r)).head?, ¬ c.isDigit := by
  intro c hc
  unfold FloatText.fractionText at hc
  split_ifs at hc
  · exact (exponent_head t hr c hc).1
  · obtain rfl : c = '.' := by simpa [eq_comm] using hc
    decide

lemma scanFraction_text (t : FloatText) (hr : Ends r) :
    scanFraction (t.fractionText ++ (t.exponentText ++ r)) =
      (t.fraction, t.exponentText ++ r) := by
  have hnext := exponent_head t hr
  unfold FloatText.fractionText
  split_ifs with h
  · rw [h, List.nil_append]
    rcases hx : t.exponentText ++ r with - | ⟨c, x⟩
    · rfl
    · have hc := (hnext c (by rw [hx]; simp)).2
      simp [scanFraction, hc]
  · have hspan := spanDigits_digits t.fraction fun c hc => (hnext c hc).1
    simp [scanFraction, hspan, h]

lemma head_toDigits_ne_minus (n : ℕ) (x : List Char) :
    (Nat.toDigits 10 n ++ x).head? ≠ some '-' := by
  obtain ⟨c, t, ht, hc⟩ := head_toDigits_isDigit n
  rw [ht]
  intro h
  obtain rfl : c = '-' := by simpa using h
  exact absurd hc (by decide)

lemma signed_append (negative : Bool) (t x : List Char) :
    signed negative t ++ x = signed negative (t ++ x) := by
  cases negative <;> rfl

lemma scanNumber_float (t : FloatText) (hr : Ends r) :
    scanNumber ((Float.finite t).dump ++ r) = some (.float (.finite t), r) := by
  have hwhole := scanWhole_toDigits t.whole (fraction_head t hr)
  have hsign := scanSign_signed t.negative
    (head_toDigits_ne_minus t.whole (t.fractionText ++ (t.exponentText ++ r)))
  simp only [Float.dump, signed_append, List.append_assoc, scanNumber, hsign, hwhole,
    scanFraction_text t hr, scanExponent_text t hr, Option.bind_eq_bind, Option.bind_some,
    dif_pos t.fractional]

lemma decimal_eq_signed (n : ℤ) :
    decimal n = signed (decide (n < 0)) (Nat.toDigits 10 n.natAbs) := by
  unfold decimal signed
  by_cases h : n < 0 <;> simp [h]

lemma scanNumber_decimal (n : ℤ) (hr : Ends r) :
    scanNumber (decimal n ++ r) = some (.num n, r) := by
  have hwhole := scanWhole_toDigits n.natAbs fun c hc => (hr c hc).1
  have hsign := scanSign_signed (decide (n < 0)) (head_toDigits_ne_minus n.natAbs r)
  have hfraction : scanFraction r = ([], r) := by
    rcases r with - | ⟨c, r⟩
    · rfl
    · have hc := (hr c (by simp)).2.1
      simp [scanFraction, hc]
  have hvalue : (if decide (n < 0) = true then -(n.natAbs : ℤ) else (n.natAbs : ℤ)) = n := by
    by_cases h : n < 0
    · rw [if_pos (by simpa using h)]
      omega
    · rw [if_neg (by simpa using h)]
      omega
  simp only [decimal_eq_signed, signed_append, scanNumber, hsign, hwhole, hfraction,
    scanExponent_ends hr, Option.bind_eq_bind, Option.bind_some, ne_eq, not_true_eq_false,
    or_self, dite_false, hvalue]

end Numbers

section Strings

lemma scanChar_escapeIn (ascii : Bool) (c : Char) (x : List Char) :
    scanChar (escapeIn ascii c ++ x) = some (c, x) := by
  unfold escapeIn
  split_ifs with h
  · exact scanChar_escapeChar c x
  · push Not at h
    exact scanChar_plain h.2.2.2 (by omega) x

/-- An escaped character is not empty and does not start with a quote. -/
lemma escapeIn_cons (ascii : Bool) (c : Char) :
    ∃ d t, escapeIn ascii c = d :: t ∧ d ≠ '"' := by
  rcases h : escapeIn ascii c with - | ⟨d, t⟩
  · have := scanChar_escapeIn ascii c []
    rw [h] at this
    simp [scanChar] at this
  · refine ⟨d, t, rfl, ?_⟩
    unfold escapeIn at h
    split_ifs at h with hc
    · rintro rfl
      exact escapeChar_ne_quote c [] t (by rw [List.append_nil, h])
    · push Not at hc
      obtain ⟨rfl, -⟩ := List.cons.inj h
      exact hc.2.2.1

lemma length_le_flatMap (ascii : Bool) (t : List Char) :
    t.length ≤ (t.flatMap (escapeIn ascii)).length := by
  induction t with
  | nil => simp
  | cons c t ih =>
    obtain ⟨d, u, hu, -⟩ := escapeIn_cons ascii c
    simp only [List.flatMap_cons, hu, List.length_append, List.length_cons]
    omega

lemma scanString_body (ascii : Bool) (t x : List Char) {n : ℕ} (hn : t.length < n) :
    scanString n (t.flatMap (escapeIn ascii) ++ '"' :: x) = some (t, x) := by
  induction t generalizing n with
  | nil =>
    obtain ⟨n, rfl⟩ := Nat.exists_eq_add_of_lt hn
    rfl
  | cons c t ih =>
    rcases n with - | n
    · simp at hn
    · obtain ⟨d, u, hu, hd⟩ := escapeIn_cons ascii c
      have hc := scanChar_escapeIn ascii c (t.flatMap (escapeIn ascii) ++ '"' :: x)
      rw [hu, List.cons_append] at hc
      rw [List.flatMap_cons, List.append_assoc, hu, List.cons_append, scanString, if_neg hd, hc]
      simp only [Option.bind_eq_bind, Option.bind_some,
        ih (show t.length < n by simpa using hn)]

/-- A quoted string, after its quote. -/
lemma scanString_quote (ascii : Bool) (t x : List Char) :
    scanString ((t.flatMap (escapeIn ascii) ++ '"' :: x).length + 1)
      (t.flatMap (escapeIn ascii) ++ '"' :: x) = some (t, x) := by
  refine scanString_body ascii t x ?_
  have := length_le_flatMap ascii t
  simp only [List.length_append, List.length_cons]
  omega

lemma quoteIn_append (ascii : Bool) (t x : List Char) :
    quoteIn ascii t ++ x = '"' :: (t.flatMap (escapeIn ascii) ++ '"' :: x) := by
  simp [quoteIn]

end Strings

section Values

mutual

/-- How deep the reader goes, counted in its calls. -/
def size : Value → ℕ
  | .arr vs => 1 + sizeItems vs
  | .obj ms => 1 + sizeMembers ms
  | _ => 1

def sizeItems : List Value → ℕ
  | [] => 0
  | v :: vs => 1 + size v + sizeItems vs

def sizeMembers : List (List Char × Value) → ℕ
  | [] => 0
  | (_, v) :: ms => 1 + size v + sizeMembers ms

end

variable (y : Style) {r : List Char}

lemma skipWs_space (t : List Char) : skipWs (y.space ++ t) = skipWs t := by
  unfold Style.space
  split_ifs
  · rfl
  · rfl

lemma skipWs_cons {c : Char} (h : isWs c = false) (t : List Char) : skipWs (c :: t) = c :: t := by
  simp [skipWs, h]

/-- What a value starts with. -/
def Opens (c : Char) : Prop := isWs c = false ∧ c ≠ ']' ∧ c ≠ '}'

lemma opens_of_digit {c : Char} (h : c.isDigit) : Opens c := by
  refine ⟨?_, ?_, ?_⟩
  · by_contra hw
    have hc : ((c = ' ' ∨ c = '\t') ∨ c = '\n') ∨ c = '\r' := by
      simpa only [isWs, Bool.not_eq_false, Bool.or_eq_true, decide_eq_true_eq] using hw
    rcases hc with ((rfl | rfl) | rfl) | rfl <;> exact absurd h (by decide)
  · rintro rfl
    exact absurd h (by decide)
  · rintro rfl
    exact absurd h (by decide)

lemma signed_opens (negative : Bool) {t : List Char} (h : ∃ c x, t = c :: x ∧ Opens c) :
    ∃ c x, signed negative t = c :: x ∧ Opens c := by
  cases negative with
  | true => exact ⟨'-', t, rfl, by unfold Opens; decide⟩
  | false => exact h

lemma toDigits_opens (n : ℕ) (u : List Char) :
    ∃ c x, Nat.toDigits 10 n ++ u = c :: x ∧ Opens c := by
  obtain ⟨c, t, ht, hc⟩ := head_toDigits_isDigit n
  exact ⟨c, t ++ u, by rw [ht, List.cons_append], opens_of_digit hc⟩

lemma dumps_opens (v : Value) : ∃ c x, dumps y v = c :: x ∧ Opens c := by
  have hopen : ∀ c ∈ ['n', 't', 'f', 'N', 'I', '"', '[', '{'], Opens c := by
    intro c hc
    simp only [List.mem_cons, List.not_mem_nil, or_false] at hc
    rcases hc with rfl | rfl | rfl | rfl | rfl | rfl | rfl | rfl <;>
      exact ⟨by decide, by decide, by decide⟩
  cases v with
  | null => exact ⟨_, _, by rw [dumps]; rfl, hopen 'n' (by decide)⟩
  | bool b =>
    cases b with
    | true => exact ⟨_, _, by rw [dumps]; rfl, hopen 't' (by decide)⟩
    | false => exact ⟨_, _, by rw [dumps]; rfl, hopen 'f' (by decide)⟩
  | num n =>
    rw [dumps, decimal_eq_signed]
    have h := toDigits_opens n.natAbs []
    rw [List.append_nil] at h
    exact signed_opens _ h
  | float x =>
    rw [dumps]
    cases x with
    | finite t => exact signed_opens _ (toDigits_opens t.whole _)
    | nan => exact ⟨_, _, rfl, hopen 'N' (by decide)⟩
    | infinity negative => exact signed_opens _ ⟨_, _, rfl, hopen 'I' (by decide)⟩
  | str t => exact ⟨_, _, by rw [dumps]; rfl, hopen '"' (by decide)⟩
  | arr vs => cases vs <;> exact ⟨_, _, by rw [dumps], hopen '[' (by decide)⟩
  | obj ms => rcases ms with - | ⟨⟨k, v⟩, ms⟩ <;> exact ⟨_, _, by rw [dumps], hopen '{' (by decide)⟩

lemma skipWs_dumps (v : Value) (x : List Char) :
    skipWs (dumps y v ++ x) = dumps y v ++ x := by
  obtain ⟨c, t, ht, hc⟩ := dumps_opens y v
  rw [ht, List.cons_append, skipWs_cons hc.1]

lemma ends_cons {c : Char} (h : c = ',' ∨ c = ']' ∨ c = '}') (x : List Char) : Ends (c :: x) := by
  intro d hd
  obtain rfl : d = c := by simpa [eq_comm] using hd
  rcases h with rfl | rfl | rfl <;> decide

lemma dumpItems_ends (vs : List Value) (x : List Char) : Ends (dumpItems y vs ++ x) := by
  cases vs with
  | nil =>
    rw [dumpItems]
    exact ends_cons (by simp) x
  | cons v vs =>
    rw [dumpItems]
    exact ends_cons (c := ',') (by simp) _

lemma dumpMembers_ends (ms : List (List Char × Value)) (x : List Char) :
    Ends (dumpMembers y ms ++ x) := by
  rcases ms with - | ⟨⟨k, v⟩, ms⟩
  · rw [dumpMembers]
    exact ends_cons (by simp) x
  · rw [dumpMembers]
    exact ends_cons (c := ',') (by simp) _

/-- A number is read by the last branch of the reader. -/
lemma scanOnce_number {cs : List Char} {v : Value} {n : ℕ} {x : List Char}
    (hd : ∃ c t, cs = c :: t ∧ (c.isDigit ∨ c = '-' ∧ t.head? ≠ some 'I'))
    (h : scanNumber cs = some (v, x)) : scanOnce (n + 1) cs = some (v, x) := by
  obtain ⟨c, t, rfl, hc⟩ := hd
  have hdigit : ∀ k ∈ ['"', '{', '[', 'n', 't', 'f', 'N', 'I'], ¬ k.isDigit ∧ k ≠ '-' := by
    intro k hk
    simp only [List.mem_cons, List.not_mem_nil, or_false] at hk
    rcases hk with rfl | rfl | rfl | rfl | rfl | rfl | rfl | rfl <;>
      exact ⟨by decide, by decide⟩
  have hne : ∀ k ∈ ['"', '{', '[', 'n', 't', 'f', 'N', 'I'], c ≠ k := by
    rintro k hk rfl
    rcases hc with hc | ⟨hc, -⟩
    · exact (hdigit c hk).1 hc
    · exact (hdigit c hk).2 hc
  have hminus : ¬ (c = '-' ∧ t.head? = some 'I') := by
    rintro ⟨rfl, ht⟩
    rcases hc with hc | ⟨-, hc⟩
    · exact absurd hc (by decide)
    · exact hc ht
  rw [scanOnce, if_neg (hne _ (by decide)), if_neg (hne _ (by decide)), if_neg (hne _ (by decide)),
    if_neg (hne _ (by decide)), if_neg (hne _ (by decide)), if_neg (hne _ (by decide)),
    if_neg (hne _ (by decide)), if_neg (hne _ (by decide)), if_neg hminus, h]

lemma signed_number (negative : Bool) (n : ℕ) (x : List Char) :
    ∃ c t, signed negative (Nat.toDigits 10 n ++ x) = c :: t ∧
      (c.isDigit ∨ c = '-' ∧ t.head? ≠ some 'I') := by
  obtain ⟨c, t, ht, hc⟩ := head_toDigits_isDigit n
  cases negative with
  | true =>
    refine ⟨'-', Nat.toDigits 10 n ++ x, rfl, .inr ⟨rfl, ?_⟩⟩
    rw [ht]
    intro h
    obtain rfl : c = 'I' := by simpa using h
    exact absurd hc (by decide)
  | false => exact ⟨c, t ++ x, by rw [ht]; rfl, .inl hc⟩

lemma scanOnce_float (x : Float) (n : ℕ) (hr : Ends r) :
    scanOnce (n + 1) (x.dump ++ r) = some (.float x, r) := by
  cases x with
  | finite t =>
    refine scanOnce_number ?_ (scanNumber_float t hr)
    rw [Float.dump, signed_append, List.append_assoc]
    exact signed_number _ _ _
  | nan => simp [Float.dump, scanOnce, keyword]
  | infinity negative => cases negative <;> simp [Float.dump, signed, scanOnce, keyword]

mutual

/-- **The round trip.** A dump is read back, whatever follows it. -/
theorem scanOnce_dumps : ∀ (v : Value) (n : ℕ) (r : List Char), size v ≤ n → Ends r →
    scanOnce n (dumps y v ++ r) = some (v, r)
  | v, 0, r, hn, _ => by
    exfalso
    cases v <;> simp [size] at hn
  | .null, n + 1, r, _, _ => by simp [dumps, scanOnce, keyword]
  | .bool true, n + 1, r, _, _ => by simp [dumps, scanOnce, keyword]
  | .bool false, n + 1, r, _, _ => by simp [dumps, scanOnce, keyword]
  | .num m, n + 1, r, _, hr => by
    rw [dumps]
    refine scanOnce_number ?_ (scanNumber_decimal m hr)
    rw [decimal_eq_signed, signed_append]
    exact signed_number _ _ _
  | .float x, n + 1, r, _, hr => by
    rw [dumps]
    exact scanOnce_float x n hr
  | .str t, n + 1, r, _, _ => by
    rw [dumps, quoteIn_append, scanOnce, if_pos rfl, scanString_quote, Option.map_some]
  | .arr [], n + 1, r, _, _ => by simp [dumps, scanOnce, skipWs, isWs]
  | .arr (v :: vs), n + 1, r, hn, _ => by
    have hn' : sizeItems (v :: vs) ≤ n := by
      rw [size] at hn
      omega
    have hitems := scanItems_dumps v vs n r hn'
    obtain ⟨c, t, ht, hc⟩ := dumps_opens y v
    have hskip := skipWs_dumps y v (dumpItems y vs ++ r)
    have hhead : (dumps y v ++ (dumpItems y vs ++ r)).head? ≠ some ']' := by
      rw [ht]
      simpa using hc.2.1
    rw [dumps, List.cons_append, List.append_assoc, scanOnce, if_neg (by decide),
      if_neg (by decide), if_pos rfl, hskip, if_neg hhead, hitems, Option.map_some]
  | .obj [], n + 1, r, _, _ => by simp [dumps, scanOnce, skipWs, isWs]
  | .obj ((k, v) :: ms), n + 1, r, hn, _ => by
    have hn' : sizeMembers ((k, v) :: ms) ≤ n := by
      rw [size] at hn
      omega
    have hmembers := scanMembers_dumps k v ms n r hn'
    have hquote : ∀ x, quoteIn y.ascii k ++ x =
        '"' :: (k.flatMap (escapeIn y.ascii) ++ '"' :: x) := quoteIn_append y.ascii k
    rw [dumps, List.cons_append, List.append_assoc, scanOnce, if_neg (by decide), if_pos rfl,
      hquote, skipWs_cons (by decide), if_neg (by simp), ← hquote, List.append_assoc,
      List.append_assoc, hmembers, Option.map_some]

theorem scanItems_dumps : ∀ (v : Value) (vs : List Value) (n : ℕ) (r : List Char),
    sizeItems (v :: vs) ≤ n →
    scanItems n (dumps y v ++ (dumpItems y vs ++ r)) = some (v :: vs, r)
  | v, vs, 0, r, hn => by simp [sizeItems] at hn
  | v, [], n + 1, r, hn => by
    have hv := scanOnce_dumps v n (dumpItems y [] ++ r) (by rw [sizeItems] at hn; omega)
      (dumpItems_ends y [] r)
    rw [scanItems, hv, dumpItems]
    simp [skipWs, isWs]
  | v, w :: vs, n + 1, r, hn => by
    have hn' : 1 + size v + sizeItems (w :: vs) ≤ n + 1 := by rwa [sizeItems] at hn
    have hv := scanOnce_dumps v n (dumpItems y (w :: vs) ++ r) (by omega)
      (dumpItems_ends y (w :: vs) r)
    have hvs := scanItems_dumps w vs n r (by omega)
    have hcomma : dumpItems y (w :: vs) ++ r =
        ',' :: (y.space ++ (dumps y w ++ (dumpItems y vs ++ r))) := by
      simp [dumpItems, Style.comma]
    rw [scanItems, hv, hcomma]
    simp only [Option.bind_eq_bind, Option.bind_some]
    rw [skipWs_cons (by decide)]
    simp only [Char.reduceEq, if_false, if_true, skipWs_space, skipWs_dumps, hvs, Option.map_some]

theorem scanMembers_dumps : ∀ (k : List Char) (v : Value) (ms : List (List Char × Value)) (n : ℕ)
    (r : List Char), sizeMembers ((k, v) :: ms) ≤ n →
    scanMembers n (quoteIn y.ascii k ++ (y.colon ++ (dumps y v ++ (dumpMembers y ms ++ r)))) =
      some ((k, v) :: ms, r)
  | k, v, ms, 0, r, hn => by simp [sizeMembers] at hn
  | k, v, [], n + 1, r, hn => by
    have hv := scanOnce_dumps v n (dumpMembers y [] ++ r) (by rw [sizeMembers] at hn; omega)
      (dumpMembers_ends y [] r)
    rw [scanMembers, quoteIn_append]
    simp only [keyword, if_true, Option.bind_eq_bind, Option.bind_some, scanString_quote,
      Style.colon, List.cons_append]
    rw [skipWs_cons (by decide)]
    simp only [keyword, if_true, Option.bind_some, skipWs_space, skipWs_dumps, hv]
    rw [dumpMembers, List.cons_append, skipWs_cons (by decide)]
    simp
  | k, v, (l, w) :: ms, n + 1, r, hn => by
    have hn' : 1 + size v + sizeMembers ((l, w) :: ms) ≤ n + 1 := by rwa [sizeMembers] at hn
    have hv := scanOnce_dumps v n (dumpMembers y ((l, w) :: ms) ++ r) (by omega)
      (dumpMembers_ends y ((l, w) :: ms) r)
    have hms := scanMembers_dumps l w ms n r (by omega)
    have hcomma : dumpMembers y ((l, w) :: ms) ++ r = ',' :: (y.space ++ (quoteIn y.ascii l ++
        (y.colon ++ (dumps y w ++ (dumpMembers y ms ++ r))))) := by
      simp [dumpMembers, Style.comma]
    have hskip : ∀ x, skipWs (quoteIn y.ascii l ++ x) = quoteIn y.ascii l ++ x := by
      intro x
      rw [quoteIn_append, skipWs_cons (by decide)]
    rw [scanMembers, quoteIn_append]
    simp only [keyword, if_true, Option.bind_eq_bind, Option.bind_some, scanString_quote,
      Style.colon, List.cons_append]
    rw [skipWs_cons (by decide)]
    simp only [keyword, if_true, Option.bind_some, skipWs_space, skipWs_dumps, hv]
    rw [hcomma, skipWs_cons (by decide)]
    simp only [Char.reduceEq, if_false, if_true, skipWs_space, hskip, hms, Option.map_some]

end

mutual

lemma size_le_length : ∀ v : Value, size v ≤ (dumps y v).length
  | .null => by simp [size, dumps]
  | .bool true => by simp [size, dumps]
  | .bool false => by simp [size, dumps]
  | .num n => by
    obtain ⟨c, x, h, -⟩ := dumps_opens y (.num n)
    simp [size, h]
  | .float x => by
    obtain ⟨c, t, h, -⟩ := dumps_opens y (.float x)
    simp [size, h]
  | .str t => by simp [size, dumps, quoteIn]
  | .arr [] => by simp [size, sizeItems, dumps]
  | .arr (v :: vs) => by
    have hv := size_le_length v
    have hvs := sizeItems_le_length vs
    simp only [size, sizeItems, dumps, List.length_cons, List.length_append]
    omega
  | .obj [] => by simp [size, sizeMembers, dumps]
  | .obj ((k, v) :: ms) => by
    have hv := size_le_length v
    have hms := sizeMembers_le_length ms
    simp only [size, sizeMembers, dumps, List.length_cons, List.length_append]
    omega

lemma sizeItems_le_length : ∀ vs : List Value, sizeItems vs + 1 ≤ (dumpItems y vs).length
  | [] => by simp [sizeItems, dumpItems]
  | v :: vs => by
    have hv := size_le_length v
    have hvs := sizeItems_le_length vs
    simp only [sizeItems, dumpItems, Style.comma, List.length_cons, List.length_append]
    omega

lemma sizeMembers_le_length : ∀ ms : List (List Char × Value),
    sizeMembers ms + 1 ≤ (dumpMembers y ms).length
  | [] => by simp [sizeMembers, dumpMembers]
  | (k, v) :: ms => by
    have hv := size_le_length v
    have hms := sizeMembers_le_length ms
    simp only [sizeMembers, dumpMembers, Style.comma, List.length_cons, List.length_append]
    omega

end

/-- **What is dumped is read back.** -/
theorem loads_dumps (v : Value) : loads (dumps y v) = some v := by
  have hsize := size_le_length y v
  have hskip := skipWs_dumps y v []
  have hread := scanOnce_dumps y v (2 * (dumps y v).length + 1) [] (by omega) ends_nil
  rw [List.append_nil] at hskip hread
  have hend : skipWs [] = [] := rfl
  simp only [loads, hskip, hread, hend, Option.bind_eq_bind, Option.bind_some, if_true]

/-! ### The characters of a dump -/

/-- A dump stays on its line. -/
def Printable (t : List Char) : Prop := ∀ c ∈ t, 32 ≤ c.toNat

lemma Printable.append {t u : List Char} (h : Printable t) (h' : Printable u) :
    Printable (t ++ u) := by
  intro c hc
  rcases List.mem_append.mp hc with hc | hc
  · exact h c hc
  · exact h' c hc

lemma Printable.cons {c : Char} {t : List Char} (hc : 32 ≤ c.toNat) (h : Printable t) :
    Printable (c :: t) := by
  intro d hd
  rcases List.mem_cons.mp hd with rfl | hd
  · exact hc
  · exact h d hd

lemma printable_nil : Printable [] := by
  intro c hc
  simp at hc

lemma printable_digit {c : Char} (h : c.isDigit) : 32 ≤ c.toNat := by
  have h' : 48 ≤ c.toNat ∧ c.toNat ≤ 57 := by
    simpa [Char.isDigit, UInt32.le_iff_toNat_le] using h
  omega

lemma printable_digits (ds : List Digit) : Printable (digits ds) := by
  intro c hc
  obtain ⟨d, -, rfl⟩ := List.mem_map.mp hc
  exact printable_digit d.property

lemma printable_toDigits (n : ℕ) : Printable (Nat.toDigits 10 n) := by
  obtain ⟨ds, hds⟩ := toDigits_eq_digits n
  rw [hds]
  exact printable_digits ds

lemma printable_signed (negative : Bool) {t : List Char} (h : Printable t) :
    Printable (signed negative t) := by
  cases negative with
  | true => exact h.cons (by decide)
  | false => exact h

lemma printable_escapeChar (c : Char) : Printable (escapeChar c) := by
  have hd : ∀ n : ℕ, 32 ≤ (n % 16).digitChar.toNat := by
    intro n
    have hn := Nat.mod_lt n (show 0 < 16 by norm_num)
    interval_cases n % 16 <;> decide
  have hu : ∀ n : ℕ, Printable (unicodeEscape n) := by
    intro n
    have h₁ := hd (n / 4096)
    have h₂ := hd (n / 256)
    have h₃ := hd (n / 16)
    have h₄ := hd n
    intro c hc
    simp only [unicodeEscape, hex4, List.cons_append, List.nil_append, List.mem_cons,
      List.not_mem_nil, or_false] at hc
    rcases hc with rfl | rfl | rfl | rfl | rfl | rfl
    · decide
    · decide
    · exact h₁
    · exact h₂
    · exact h₃
    · exact h₄
  unfold escapeChar
  split_ifs with h₁ h₂ h₃ h₄ h₅ h₆ h₇ h₈ h₉
  on_goal 8 => exact printable_nil.cons h₈.1
  on_goal 8 => exact hu _
  on_goal 8 => exact (hu _).append (hu _)
  all_goals simp [Printable]

lemma printable_quoteIn (ascii : Bool) (t : List Char) : Printable (quoteIn ascii t) := by
  have hbody : Printable (t.flatMap (escapeIn ascii)) := by
    intro c hc
    obtain ⟨d, -, hd⟩ := List.mem_flatMap.mp hc
    unfold escapeIn at hd
    split_ifs at hd with h
    · exact printable_escapeChar d c hd
    · push Not at h
      obtain rfl : c = d := by simpa using hd
      exact h.2.1
  exact (hbody.append (printable_nil.cons (by decide))).cons (by decide)

lemma printable_space : Printable y.space := by
  unfold Style.space
  split_ifs
  · exact printable_nil.cons (by decide)
  · exact printable_nil

lemma printable_float (x : Float) : Printable x.dump := by
  cases x with
  | finite t =>
    have hfraction : Printable t.fractionText := by
      unfold FloatText.fractionText
      split_ifs
      · exact printable_nil
      · exact (printable_digits _).cons (by decide)
    have hexponent : Printable t.exponentText := by
      unfold FloatText.exponentText
      rcases t.exponent with - | ⟨negative, d, ds⟩
      · exact printable_nil
      · refine Printable.cons (by decide) ((printable_digits _).cons ?_)
        cases negative <;> decide
    exact printable_signed _ ((printable_toDigits _).append (hfraction.append hexponent))
  | nan => simp [Printable, Float.dump]
  | infinity negative =>
    refine printable_signed _ ?_
    simp [Printable]

mutual

lemma printable_dumps : ∀ v : Value, Printable (dumps y v)
  | .null => by simp [Printable, dumps]
  | .bool true => by simp [Printable, dumps]
  | .bool false => by simp [Printable, dumps]
  | .num n => by
    rw [dumps, decimal_eq_signed]
    exact printable_signed _ (printable_toDigits _)
  | .float x => by
    rw [dumps]
    exact printable_float x
  | .str t => by
    rw [dumps]
    exact printable_quoteIn _ t
  | .arr [] => by simp [Printable, dumps]
  | .arr (v :: vs) => by
    rw [dumps]
    exact ((printable_dumps v).append (printable_dumpItems vs)).cons (by decide)
  | .obj [] => by simp [Printable, dumps]
  | .obj ((k, v) :: ms) => by
    rw [dumps]
    exact ((printable_quoteIn _ k).append (((printable_space y).cons (by decide)).append
      ((printable_dumps v).append (printable_dumpMembers ms)))).cons (by decide)

lemma printable_dumpItems : ∀ vs : List Value, Printable (dumpItems y vs)
  | [] => by simp [Printable, dumpItems]
  | v :: vs => by
    rw [dumpItems]
    exact ((printable_space y).cons (by decide)).append
      ((printable_dumps v).append (printable_dumpItems vs))

lemma printable_dumpMembers : ∀ ms : List (List Char × Value), Printable (dumpMembers y ms)
  | [] => by simp [Printable, dumpMembers]
  | (k, v) :: ms => by
    rw [dumpMembers]
    exact ((printable_space y).cons (by decide)).append ((printable_quoteIn _ k).append
      (((printable_space y).cons (by decide)).append
        ((printable_dumps v).append (printable_dumpMembers ms))))

end

/-! ### The parts of a dump -/

/-- A character from the hyphen to the one before the backslash stands for itself. -/
lemma escapeIn_plain (ascii : Bool) {c : Char} (hlo : 45 ≤ c.toNat) (hhi : c.toNat < 92) :
    escapeIn ascii c = [c] := by
  have hne : ∀ d : Char, d.toNat < 45 ∨ 92 ≤ d.toNat → c ≠ d := by
    rintro d hd rfl
    omega
  have hescape : escapeChar c = [c] := by
    unfold escapeChar
    rw [if_neg (hne _ (by decide)), if_neg (hne _ (by decide)), if_neg (hne _ (by decide)),
      if_neg (hne _ (by decide)), if_neg (hne _ (by decide)), if_neg (by omega),
      if_neg (by omega), if_pos (by omega)]
  unfold escapeIn
  rw [hescape, ite_self]

/-- A text of plain characters stands for itself in a dump. -/
lemma quoteIn_plain_within (ascii : Bool) {p : List Char} (rest : List Char)
    (hp : ∀ c ∈ p, escapeIn ascii c = [c]) : p <:+: quoteIn ascii (p ++ rest) := by
  have hplain : p.flatMap (escapeIn ascii) = p := by
    induction p with
    | nil => rfl
    | cons c p ih =>
      rw [List.flatMap_cons, hp c List.mem_cons_self,
        ih fun d hd => hp d (List.mem_cons_of_mem _ hd)]
      rfl
  rw [quoteIn, List.flatMap_append, hplain, List.append_assoc]
  exact ⟨['"'], rest.flatMap (escapeIn ascii) ++ ['"'], rfl⟩

lemma dumpItems_within {v : Value} {vs : List Value} (h : v ∈ vs) :
    dumps y v <:+: dumpItems y vs := by
  induction vs with
  | nil => simp at h
  | cons w vs ih =>
    rw [dumpItems]
    rcases List.mem_cons.mp h with rfl | h
    · exact (List.prefix_append _ _).isInfix.trans (List.suffix_append _ _).isInfix
    · exact (ih h).trans ((List.suffix_append _ _).trans (List.suffix_append _ _)).isInfix

/-- An item is dumped within its array. -/
lemma dumps_item_within {v : Value} {vs : List Value} (h : v ∈ vs) :
    dumps y v <:+: dumps y (.arr vs) := by
  rcases vs with - | ⟨w, vs⟩
  · simp at h
  · rw [dumps]
    refine List.IsInfix.trans ?_ (List.suffix_cons _ _).isInfix
    rcases List.mem_cons.mp h with rfl | h
    · exact (List.prefix_append _ _).isInfix
    · exact (dumpItems_within y h).trans (List.suffix_append _ _).isInfix

lemma dumpMembers_within {k : List Char} {v : Value} {ms : List (List Char × Value)}
    (h : (k, v) ∈ ms) : dumps y v <:+: dumpMembers y ms := by
  induction ms with
  | nil => simp at h
  | cons m ms ih =>
    obtain ⟨l, w⟩ := m
    rw [dumpMembers]
    have hback : dumps y w ++ dumpMembers y ms <:+
        y.comma ++ (quoteIn y.ascii l ++ (y.colon ++ (dumps y w ++ dumpMembers y ms))) :=
      ((List.suffix_append _ _).trans (List.suffix_append _ _)).trans (List.suffix_append _ _)
    rcases List.mem_cons.mp h with h | h
    · cases h
      exact (List.prefix_append _ _).isInfix.trans hback.isInfix
    · exact (ih h).trans ((List.suffix_append _ _).trans hback).isInfix

/-- A member's value is dumped within its object. -/
lemma dumps_member_within {k : List Char} {v : Value} {ms : List (List Char × Value)}
    (h : (k, v) ∈ ms) : dumps y v <:+: dumps y (.obj ms) := by
  rcases ms with - | ⟨⟨l, w⟩, ms⟩
  · simp at h
  · rw [dumps]
    have hback : dumps y w ++ dumpMembers y ms <:+
        '{' :: (quoteIn y.ascii l ++ (y.colon ++ (dumps y w ++ dumpMembers y ms))) :=
      ((List.suffix_append _ _).trans (List.suffix_append _ _)).trans (List.suffix_cons _ _)
    rcases List.mem_cons.mp h with h | h
    · cases h
      exact (List.prefix_append _ _).isInfix.trans hback.isInfix
    · exact (dumpMembers_within y h).trans ((List.suffix_append _ _).trans hback).isInfix

end Values

end Json

end PumpGrok
