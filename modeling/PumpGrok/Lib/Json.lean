import Mathlib

/-!
JSON objects of strings and integers, in the form of a dump without spaces that escapes every
character outside printable ASCII. The characters of a string are read back, so that the dump
determines the object.
-/

namespace PumpGrok

namespace Json

/-! ### Strings -/

/-- Four hexadecimal digits. -/
def hex4 (n : ℕ) : List Char :=
  [(n / 4096 % 16).digitChar, (n / 256 % 16).digitChar, (n / 16 % 16).digitChar,
    (n % 16).digitChar]

def unicodeEscape (n : ℕ) : List Char := ['\\', 'u'] ++ hex4 n

/-- One character of a string; beyond the basic plane a pair of surrogates. -/
def escapeChar (c : Char) : List Char :=
  if c = '"' then ['\\', '"']
  else if c = '\\' then ['\\', '\\']
  else if c = '\n' then ['\\', 'n']
  else if c = '\r' then ['\\', 'r']
  else if c = '\t' then ['\\', 't']
  else if c.toNat = 8 then ['\\', 'b']
  else if c.toNat = 12 then ['\\', 'f']
  else if 32 ≤ c.toNat ∧ c.toNat ≤ 126 then [c]
  else if c.toNat < 0x10000 then unicodeEscape c.toNat
  else
    unicodeEscape (0xd800 + (c.toNat - 0x10000) / 1024) ++
      unicodeEscape (0xdc00 + (c.toNat - 0x10000) % 1024)

def quote (t : List Char) : List Char := '"' :: (t.flatMap escapeChar ++ ['"'])

/-! ### Reading a string -/

/-- Read a fixed text. -/
def keyword : List Char → List Char → Option (List Char)
  | [], r => some r
  | k :: ks, c :: r => if c = k then keyword ks r else none
  | _ :: _, [] => none

def shortEscape : Char → Char
  | 'n' => '\n'
  | 'r' => '\r'
  | 't' => '\t'
  | 'b' => Char.ofNat 8
  | 'f' => Char.ofNat 12
  | c => c

def hexDigit (c : Char) : Option ℕ :=
  if 48 ≤ c.toNat ∧ c.toNat ≤ 57 then some (c.toNat - 48)
  else if 97 ≤ c.toNat ∧ c.toNat ≤ 102 then some (c.toNat - 87)
  else if 65 ≤ c.toNat ∧ c.toNat ≤ 70 then some (c.toNat - 55)
  else none

def scanHex4 : List Char → Option (ℕ × List Char)
  | a :: b :: c :: d :: r => do
    let a ← hexDigit a
    let b ← hexDigit b
    let c ← hexDigit c
    let d ← hexDigit d
    some (a * 4096 + b * 256 + c * 16 + d, r)
  | _ => none

def readEscape (k : Char) : Option Char :=
  if k ∈ ['"', '\\', '/'] then some k
  else if k ∈ ['n', 'r', 't', 'b', 'f'] then some (shortEscape k)
  else none

/-- One character of a string. A surrogate outside a pair stands for no character. -/
def scanChar : List Char → Option (Char × List Char)
  | [] => none
  | c :: r =>
    if c ≠ '\\' then if c.toNat < 32 then none else some (c, r)
    else
      match r with
      | [] => none
      | k :: r =>
        if k ≠ 'u' then (readEscape k).map fun c => (c, r)
        else do
          let (n, r) ← scanHex4 r
          if 0xd800 ≤ n ∧ n < 0xdc00 then do
            let r ← keyword ['\\', 'u'] r
            let (m, r) ← scanHex4 r
            if 0xdc00 ≤ m ∧ m < 0xe000 then
              some (Char.ofNat (0x10000 + (n - 0xd800) * 1024 + (m - 0xdc00)), r)
            else none
          else if 0xdc00 ≤ n ∧ n < 0xe000 then none
          else some (Char.ofNat n, r)

lemma hexDigit_digitChar {n : ℕ} (h : n < 16) : hexDigit n.digitChar = some n := by
  have : ∀ m : Fin 16, hexDigit (m : ℕ).digitChar = some (m : ℕ) := by decide
  exact this ⟨n, h⟩

lemma scanHex4_hex4 {n : ℕ} (h : n < 65536) (x : List Char) :
    scanHex4 (hex4 n ++ x) = some (n, x) := by
  have hd : ∀ m : ℕ, m % 16 < 16 := fun m => Nat.mod_lt _ (by norm_num)
  simp only [hex4, List.cons_append, List.nil_append, scanHex4, hexDigit_digitChar (hd _),
    Option.bind_eq_bind, Option.bind_some, Option.some.injEq, Prod.mk.injEq, and_true]
  omega

lemma scanChar_plain {c : Char} (h : c ≠ '\\') (hc : 32 ≤ c.toNat) (x : List Char) :
    scanChar (c :: x) = some (c, x) := by
  have h32 : ¬ c.toNat < 32 := by omega
  simp [scanChar, h, h32]

lemma scanChar_short {k c : Char} (h : k ≠ 'u') (hk : readEscape k = some c) (x : List Char) :
    scanChar ('\\' :: k :: x) = some (c, x) := by
  simp [scanChar, h, hk]

lemma scanChar_basic {n : ℕ} (h : n < 65536) (hs : ¬ (0xd800 ≤ n ∧ n < 0xe000))
    (x : List Char) : scanChar (unicodeEscape n ++ x) = some (Char.ofNat n, x) := by
  have h₁ : ¬ (0xd800 ≤ n ∧ n < 0xdc00) := by omega
  have h₂ : ¬ (0xdc00 ≤ n ∧ n < 0xe000) := by omega
  simp [unicodeEscape, scanChar, scanHex4_hex4 h, if_neg h₁, if_neg h₂]

lemma scanChar_pair {m n : ℕ} (hm : 0xd800 ≤ m) (hm' : m < 0xdc00) (hn : 0xdc00 ≤ n)
    (hn' : n < 0xe000) (x : List Char) :
    scanChar (unicodeEscape m ++ unicodeEscape n ++ x) =
      some (Char.ofNat (0x10000 + (m - 0xd800) * 1024 + (n - 0xdc00)), x) := by
  have hk : keyword ['\\', 'u'] (unicodeEscape n ++ x) = some (hex4 n ++ x) := rfl
  have hu : scanChar (unicodeEscape m ++ unicodeEscape n ++ x) = (do
      let (a, r) ← scanHex4 (hex4 m ++ (unicodeEscape n ++ x))
      if 0xd800 ≤ a ∧ a < 0xdc00 then do
        let r ← keyword ['\\', 'u'] r
        let (b, r) ← scanHex4 r
        if 0xdc00 ≤ b ∧ b < 0xe000 then
          some (Char.ofNat (0x10000 + (a - 0xd800) * 1024 + (b - 0xdc00)), r)
        else none
      else if 0xdc00 ≤ a ∧ a < 0xe000 then none
      else some (Char.ofNat a, r)) := by
    rw [List.append_assoc]
    rfl
  rw [hu, scanHex4_hex4 (by omega)]
  simp only [Option.bind_eq_bind, Option.bind_some, if_pos (And.intro hm hm'), hk,
    scanHex4_hex4 (show n < 65536 by omega), if_pos (And.intro hn hn')]

lemma toNat_bounds (c : Char) :
    c.toNat < 0x110000 ∧ ¬ (0xd800 ≤ c.toNat ∧ c.toNat < 0xe000) := by
  have := c.valid
  simp only [UInt32.isValidChar, Nat.isValidChar] at this
  have hn : c.val.toNat = c.toNat := rfl
  omega

/-- **Reading back** an escaped character. -/
theorem scanChar_escapeChar (c : Char) (x : List Char) :
    scanChar (escapeChar c ++ x) = some (c, x) := by
  obtain ⟨hle, hv⟩ := toNat_bounds c
  unfold escapeChar
  split_ifs with h₁ h₂ h₃ h₄ h₅ h₆ h₇ h₈ h₉
  · subst h₁
    exact scanChar_short (by decide) (by decide) x
  · subst h₂
    exact scanChar_short (by decide) (by decide) x
  · subst h₃
    exact scanChar_short (by decide) (by decide) x
  · subst h₄
    exact scanChar_short (by decide) (by decide) x
  · subst h₅
    exact scanChar_short (by decide) (by decide) x
  · have hc : c = Char.ofNat 8 := by rw [← h₆, Char.ofNat_toNat]
    subst hc
    exact scanChar_short (by decide) (by decide) x
  · have hc : c = Char.ofNat 12 := by rw [← h₇, Char.ofNat_toNat]
    subst hc
    exact scanChar_short (by decide) (by decide) x
  · exact scanChar_plain h₂ h₈.1 x
  · rw [scanChar_basic h₉ hv, Char.ofNat_toNat]
  · rw [scanChar_pair (by omega) (by omega) (by omega) (by omega)]
    have : 0x10000 + (0xd800 + (c.toNat - 0x10000) / 1024 - 0xd800) * 1024 +
        (0xdc00 + (c.toNat - 0x10000) % 1024 - 0xdc00) = c.toNat := by omega
    rw [this, Char.ofNat_toNat]

lemma escapeChar_inj {c d : Char} {x y : List Char} (h : escapeChar c ++ x = escapeChar d ++ y) :
    c = d ∧ x = y := by
  have := congrArg scanChar h
  rw [scanChar_escapeChar, scanChar_escapeChar] at this
  exact Prod.mk.inj (Option.some.inj this)

/-- An escaped character does not start like the end of a string. -/
lemma escapeChar_ne_quote (c : Char) (x y : List Char) : escapeChar c ++ x ≠ '"' :: y := by
  intro h
  unfold escapeChar at h
  split_ifs at h with h₁ <;> simp_all [unicodeEscape]

lemma body_inj {s t x y : List Char}
    (h : s.flatMap escapeChar ++ '"' :: x = t.flatMap escapeChar ++ '"' :: y) :
    s = t ∧ x = y := by
  induction s generalizing t with
  | nil =>
    rcases t with - | ⟨d, t⟩
    · exact ⟨rfl, by simpa using h⟩
    · rw [List.flatMap_nil, List.nil_append, List.flatMap_cons, List.append_assoc] at h
      exact absurd h.symm (escapeChar_ne_quote d _ _)
  | cons c s ih =>
    rcases t with - | ⟨d, t⟩
    · rw [List.flatMap_nil, List.nil_append, List.flatMap_cons, List.append_assoc] at h
      exact absurd h (escapeChar_ne_quote c _ _)
    · rw [List.flatMap_cons, List.flatMap_cons, List.append_assoc, List.append_assoc] at h
      obtain ⟨rfl, h'⟩ := escapeChar_inj h
      obtain ⟨rfl, hxy⟩ := ih h'
      exact ⟨rfl, hxy⟩

/-- A quoted string ends where its quotes say. -/
lemma quote_inj {s t x y : List Char} (h : quote s ++ x = quote t ++ y) : s = t ∧ x = y := by
  simp only [quote, List.cons_append, List.append_assoc, List.nil_append, List.cons.injEq,
    true_and] at h
  exact body_inj h

/-! ### Integers -/

def decimal (n : ℤ) : List Char :=
  if n < 0 then '-' :: Nat.toDigits 10 n.natAbs else Nat.toDigits 10 n.natAbs

lemma decimal_chars (n : ℤ) : ∀ c ∈ decimal n, c.isDigit ∨ c = '-' := by
  intro c hc
  have hd : ∀ c ∈ Nat.toDigits 10 n.natAbs, c.isDigit := fun c =>
    Nat.isDigit_of_mem_toDigits (by norm_num) (by norm_num)
  unfold decimal at hc
  split_ifs at hc
  · rcases List.mem_cons.mp hc with rfl | hc
    · exact .inr rfl
    · exact .inl (hd c hc)
  · exact .inl (hd c hc)

lemma toDigits_inj {m n : ℕ} (h : Nat.toDigits 10 m = Nat.toDigits 10 n) : m = n := by
  have := congrArg (fun l => Nat.ofDigitChars 10 l 0) h
  simpa only [Nat.ofDigitChars_ten_toDigits] using this

lemma minus_notin_toDigits (n : ℕ) : '-' ∉ Nat.toDigits 10 n := fun h => by
  have := Nat.isDigit_of_mem_toDigits (b := 10) (by norm_num) (by norm_num) h
  exact absurd this (by decide)

lemma decimal_injective {m n : ℤ} (h : decimal m = decimal n) : m = n := by
  unfold decimal at h
  split_ifs at h with hm hn hn
  · have := toDigits_inj (List.cons.inj h).2
    omega
  · exact absurd (h ▸ List.mem_cons_self : '-' ∈ _) (minus_notin_toDigits _)
  · exact absurd (h.symm ▸ List.mem_cons_self : '-' ∈ _) (minus_notin_toDigits _)
  · have := toDigits_inj h
    omega

/-! ### Objects -/

inductive Scalar where
  | str (t : List Char)
  | num (n : ℤ)
  deriving DecidableEq

def Scalar.dump : Scalar → List Char
  | .str t => quote t
  | .num n => decimal n

/-- The members of an object and its end. -/
def members : List (List Char × Scalar) → List Char
  | [] => ['}']
  | [(k, v)] => quote k ++ ':' :: (v.dump ++ ['}'])
  | (k, v) :: m :: ms => quote k ++ ':' :: (v.dump ++ ',' :: members (m :: ms))

def object (ms : List (List Char × Scalar)) : List Char := '{' :: members ms

/-- Two lists of members of a class, each cut by a character outside it. -/
lemma append_cut {p : Char → Prop} {s t x y : List Char} {a b : Char} (hs : ∀ c ∈ s, p c)
    (ht : ∀ c ∈ t, p c) (ha : ¬ p a) (hb : ¬ p b) (h : s ++ a :: x = t ++ b :: y) :
    s = t ∧ a = b ∧ x = y := by
  induction s generalizing t with
  | nil =>
    rcases t with - | ⟨d, t⟩
    · simpa using h
    · obtain ⟨rfl, -⟩ := List.cons.inj h
      exact absurd (ht a (by simp)) ha
  | cons c s ih =>
    rcases t with - | ⟨d, t⟩
    · obtain ⟨rfl, -⟩ := List.cons.inj h
      exact absurd (hs c (by simp)) hb
    · obtain ⟨rfl, h'⟩ := List.cons.inj h
      obtain ⟨rfl, hab⟩ := ih (fun c hc => hs c (by simp [hc])) (fun c hc => ht c (by simp [hc])) h'
      exact ⟨rfl, hab⟩

/-- A value ends before the comma or the brace after it. -/
lemma dump_inj {v w : Scalar} {x y : List Char} {a b : Char} (ha : a = ',' ∨ a = '}')
    (hb : b = ',' ∨ b = '}') (h : v.dump ++ a :: x = w.dump ++ b :: y) :
    v = w ∧ a = b ∧ x = y := by
  have hend : ∀ c : Char, c = ',' ∨ c = '}' → ¬ (c.isDigit ∨ c = '-') := by
    rintro c (rfl | rfl) <;> decide
  have hquote : ∀ (n : ℤ) (c : Char) (x y z : List Char), c = ',' ∨ c = '}' →
      quote z ++ y ≠ decimal n ++ c :: x := by
    intro n c x y z hc h
    have hmem : '"' ∈ decimal n ∨ '"' = c := by
      rcases hd : decimal n with - | ⟨d, ds⟩
      · rw [hd] at h
        exact .inr (List.cons.inj h).1
      · rw [hd] at h
        exact .inl (by rw [(List.cons.inj h).1]; simp)
    rcases hmem with hmem | rfl
    · rcases decimal_chars n _ hmem with h | h
      · exact absurd h (by decide)
      · exact absurd h (by decide)
    · simp at hc
  cases v with
  | str s =>
    cases w with
    | str t =>
      obtain ⟨rfl, hxy⟩ := quote_inj h
      exact ⟨rfl, List.cons.inj hxy⟩
    | num n => exact absurd h (hquote n b y _ s hb)
  | num m =>
    cases w with
    | str t => exact absurd h.symm (hquote m a x _ t ha)
    | num n =>
      obtain ⟨hmn, hab⟩ := append_cut (decimal_chars m) (decimal_chars n) (hend a ha) (hend b hb) h
      exact ⟨congrArg Scalar.num (decimal_injective hmn), hab⟩

lemma quote_ne_brace (k x : List Char) : quote k ++ x ≠ ['}'] := by
  intro h
  have := (List.cons.inj h).1
  simp at this

lemma members_inj {ms ns : List (List Char × Scalar)} (h : members ms = members ns) : ms = ns := by
  induction ms generalizing ns with
  | nil =>
    rcases ns with - | ⟨⟨k, v⟩, - | ⟨n, ns⟩⟩
    · rfl
    · exact absurd h.symm (quote_ne_brace k _)
    · exact absurd h.symm (quote_ne_brace k _)
  | cons m ms ih =>
    obtain ⟨k, v⟩ := m
    rcases ns with - | ⟨⟨l, w⟩, ns⟩
    · rcases ms with - | ⟨m, ms⟩ <;> exact absurd h (quote_ne_brace k _)
    · have hkv : ∃ a x b y, (a = ',' ∧ x = members ms ∧ ms ≠ [] ∨ a = '}' ∧ x = [] ∧ ms = []) ∧
          (b = ',' ∧ y = members ns ∧ ns ≠ [] ∨ b = '}' ∧ y = [] ∧ ns = []) ∧
          quote k ++ ':' :: (v.dump ++ a :: x) = quote l ++ ':' :: (w.dump ++ b :: y) := by
        rcases ms with - | ⟨m, ms⟩ <;> rcases ns with - | ⟨n, ns⟩
        · exact ⟨'}', [], '}', [], .inr ⟨rfl, rfl, rfl⟩, .inr ⟨rfl, rfl, rfl⟩, h⟩
        · exact ⟨'}', [], ',', _, .inr ⟨rfl, rfl, rfl⟩, .inl ⟨rfl, rfl, by simp⟩, h⟩
        · exact ⟨',', _, '}', [], .inl ⟨rfl, rfl, by simp⟩, .inr ⟨rfl, rfl, rfl⟩, h⟩
        · exact ⟨',', _, ',', _, .inl ⟨rfl, rfl, by simp⟩, .inl ⟨rfl, rfl, by simp⟩, h⟩
      obtain ⟨a, x, b, y, ha, hb, heq⟩ := hkv
      obtain ⟨rfl, hrest⟩ := quote_inj heq
      obtain ⟨rfl, rfl, rfl⟩ := dump_inj (ha.imp And.left And.left) (hb.imp And.left And.left)
        (List.cons.inj hrest).2
      rcases ha with ⟨rfl, hx, hms⟩ | ⟨rfl, hx, hms⟩
      · rcases hb with ⟨-, hy, hns⟩ | ⟨hcb, -⟩
        · rw [ih (hx.symm.trans hy)]
        · simp at hcb
      · rcases hb with ⟨hcb, -⟩ | ⟨-, hy, hns⟩
        · simp at hcb
        · rw [hms, hns]

/-- **The dump of an object determines it.** -/
theorem object_injective {ms ns : List (List Char × Scalar)} (h : object ms = object ns) :
    ms = ns := members_inj (List.cons.inj h).2

end Json

end PumpGrok
