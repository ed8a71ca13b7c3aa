import PumpGrok.Lib.Prog
import PumpGrok.Lib.ByteLines

/-!
Readers of bytes: a position in the data, words in little-endian order, and what reading the
encoding of a value gives whole, followed by other bytes or cut short.
-/

namespace PumpGrok

/-! ### Little-endian words -/

namespace Bytes

/-- The number that bytes spell, the first the lowest. -/
def leNat (b : Bytes) : ℕ := Nat.ofDigits 256 (b.map UInt8.toNat)

/-- The `width` lowest bytes of a number. -/
def leBytes : ℕ → ℕ → Bytes
  | 0, _ => []
  | w + 1, n => UInt8.ofNat (n % 256) :: leBytes w (n / 256)

@[simp] lemma length_leBytes (w n : ℕ) : (leBytes w n).length = w := by
  induction w generalizing n with
  | zero => rfl
  | succ w ih => simp [leBytes, ih]

lemma leNat_leBytes {w n : ℕ} (h : n < 256 ^ w) : leNat (leBytes w n) = n := by
  induction w generalizing n with
  | zero =>
    have : n = 0 := by simpa using h
    simp [leBytes, leNat, this]
  | succ w ih =>
    have hd : n / 256 < 256 ^ w := by
      rw [pow_succ] at h
      omega
    have hb : (UInt8.ofNat (n % 256)).toNat = n % 256 := by
      rw [UInt8.toNat_ofNat']
      omega
    have hr := ih hd
    simp only [leNat] at hr
    simp only [leBytes, leNat, List.map_cons, Nat.ofDigits_cons, hb, hr]
    omega

end Bytes

/-- Bytes and the position of the next one to read. -/
structure Reader where
  data : Bytes
  pos : ℕ

namespace Reader

variable {ε α β : Type}

/-- The next `count` bytes. Where there are fewer it raises, with the count, the offset and the
length of the data, and the position stays. -/
def take (short : ℕ → ℕ → ℕ → ε) (count : ℕ) : Prog Reader ε Bytes := fun s =>
  if s.data.length < s.pos + count then (.error (short count s.pos s.data.length), s)
  else (.ok ((s.data.drop s.pos).take count), { s with pos := s.pos + count })

section Take

variable {short : ℕ → ℕ → ℕ → ε} {count : ℕ}

lemma take_run {pre enc post : Bytes} (h : enc.length = count) :
    take short count ⟨pre ++ enc ++ post, pre.length⟩ =
      (.ok enc, ⟨pre ++ enc ++ post, pre.length + enc.length⟩) := by
  subst h
  simp [take]

lemma take_short {s : Reader} (h : s.data.length < s.pos + count) :
    take short count s = (.error (short count s.pos s.data.length), s) := by
  simp [take, h]

lemma take_length {s s' : Reader} {chunk : Bytes} (h : take short count s = (.ok chunk, s')) :
    chunk.length = count := by
  by_cases hc : s.data.length < s.pos + count
  · rw [take_short hc] at h
    exact nomatch h
  · simp only [take, if_neg hc, Prod.mk.injEq, Except.ok.injEq] at h
    rw [← h.1, List.length_take, List.length_drop]
    omega

end Take

/-! ### What the encoding of a value gives -/

section Decodes

variable (Good : ε → Prop)

/-- A raise of one of the errors in `Good`. -/
def Raises (x : Except ε α × Reader) : Prop := ∃ e s, x = (.error e, s) ∧ Good e

/-- Reading `enc` gives `r`, whatever stands before it and after it, and raises where `enc` has
no value. Cut short anywhere it raises. -/
structure Decodes (m : Prog Reader ε α) (enc : Bytes) (r : Option α) : Prop where
  whole : ∀ a, r = some a → ∀ pre post, m ⟨pre ++ enc ++ post, pre.length⟩ =
    (.ok a, ⟨pre ++ enc ++ post, pre.length + enc.length⟩)
  bad : r = none → ∀ pre post, Raises Good (m ⟨pre ++ enc ++ post, pre.length⟩)
  cut : ∀ pre p, p <+: enc → p ≠ enc → Raises Good (m ⟨pre ++ p, pre.length⟩)

variable {Good} {m : Prog Reader ε α} {f : α → Prog Reader ε β} {enc enc' : Bytes}

lemma Raises.bind {s : Reader} (h : Raises Good (m s)) : Raises Good ((m >>= f) s) := by
  obtain ⟨e, s', hm, he⟩ := h
  exact ⟨e, s', Prog.bind_run_error hm, he⟩

namespace Decodes

/-- A step that reads nothing. -/
lemma value {a : α} (h : ∀ s, m s = (.ok a, s)) : Decodes Good m [] (some a) where
  whole b hb pre post := by
    obtain rfl : a = b := Option.some.inj hb
    exact h _
  bad h := nomatch h
  cut pre p hp hne := absurd (List.prefix_nil.mp hp) hne

lemma pure (a : α) : Decodes Good (Pure.pure a : Prog Reader ε α) [] (some a) :=
  value fun s => Prog.pure_run a s

/-- **Sequencing.** The encodings stand one after the other, and the sequence has a value where
both parts have one. A cut falls into the first encoding or into the second. -/
theorem bind {r : Option α} {k : α → Option β} (hm : Decodes Good m enc r)
    (hf : ∀ a, r = some a → Decodes Good (f a) enc' (k a)) :
    Decodes Good (m >>= f) (enc ++ enc') (r >>= k) where
  whole b hb pre post := by
    obtain ⟨a, hr, ha⟩ := Option.bind_eq_some_iff.mp hb
    have h₁ := hm.whole a hr pre (enc' ++ post)
    have h₂ := (hf a hr).whole b ha (pre ++ enc) post
    simp only [List.append_assoc, List.length_append] at h₁ h₂ ⊢
    rw [Prog.bind_run_ok h₁, h₂, Nat.add_assoc]
  bad hn pre post := by
    rcases hr : r with - | a
    · have h := hm.bad hr pre (enc' ++ post)
      simp only [List.append_assoc] at h ⊢
      exact h.bind
    · have h₁ := hm.whole a hr pre (enc' ++ post)
      have h₂ := (hf a hr).bad (by simpa [hr] using hn) (pre ++ enc) post
      simp only [List.append_assoc, List.length_append] at h₁ h₂ ⊢
      obtain ⟨e, s, he, hg⟩ := h₂
      exact ⟨e, s, (Prog.bind_run_ok h₁).trans he, hg⟩
  cut pre p hp hne := by
    by_cases hlt : p.length < enc.length
    · have hp' : p <+: enc :=
        List.prefix_of_prefix_length_le hp (List.prefix_append enc enc') hlt.le
      have hne' : p ≠ enc := by
        rintro rfl
        exact absurd hlt (lt_irrefl _)
      exact (hm.cut pre p hp' hne').bind
    · obtain ⟨q, rfl⟩ : enc <+: p :=
        List.prefix_of_prefix_length_le (List.prefix_append enc enc') hp (not_lt.mp hlt)
      have hq : q <+: enc' := (List.prefix_append_right_inj enc).mp hp
      have hqne : q ≠ enc' := by
        rintro rfl
        exact hne rfl
      rcases hr : r with - | a
      · have h := hm.bad hr pre q
        rw [List.append_assoc] at h
        exact h.bind
      · have h₁ := hm.whole a hr pre q
        obtain ⟨e, s, he, hg⟩ := (hf a hr).cut (pre ++ enc) q hq hqne
        simp only [List.append_assoc, List.length_append] at h₁ he ⊢
        exact ⟨e, s, (Prog.bind_run_ok h₁).trans he, hg⟩

/-- A first part that always has a value. -/
lemma bind_some {a : α} {r' : Option β} (hm : Decodes Good m enc (some a))
    (hf : Decodes Good (f a) enc' r') : Decodes Good (m >>= f) (enc ++ enc') r' :=
  hm.bind (k := fun _ => r') fun b hb => by
    obtain rfl : a = b := Option.some.inj hb
    exact hf

lemma refused (h : ∀ s, Raises Good (m s)) : Decodes Good m [] none where
  whole _ ha := nomatch ha
  bad _ _ _ := h _
  cut _ _ hp hne := absurd (List.prefix_nil.mp hp) hne

/-- A last step that reads nothing. -/
lemma last {a : α} {r : Option β} (hm : Decodes Good m enc (some a))
    (hf : Decodes Good (f a) [] r) : Decodes Good (m >>= f) enc r := by
  have h := hm.bind_some hf
  rwa [List.append_nil] at h

lemma take {short : ℕ → ℕ → ℕ → ε} (hs : ∀ n o l, Good (short n o l)) :
    Decodes Good (Reader.take short enc.length) enc (some enc) where
  whole a ha pre post := by
    obtain rfl : enc = a := Option.some.inj ha
    exact take_run rfl
  bad h := nomatch h
  cut pre p hp hne := by
    have hlt : p.length < enc.length := by
      refine lt_of_le_of_ne hp.length_le fun h => hne ?_
      exact hp.eq_of_length h
    exact ⟨_, _, take_short (by simpa using hlt), hs _ _ _⟩

end Decodes

end Decodes

/-! ### Reading within the data -/

section Bounded

/-- Read from inside its data, a program stays inside, raises only errors in `Good`, and returns
what the bytes up to where it stops say, whatever comes after them. -/
structure Bounded (Good : ε → Prop) (m : Prog Reader ε α) : Prop where
  data : ∀ s, (m s).2.data = s.data
  pos : ∀ s, s.pos ≤ s.data.length → s.pos ≤ (m s).2.pos ∧ (m s).2.pos ≤ s.data.length
  error : ∀ s e, s.pos ≤ s.data.length → (m s).1 = .error e → Good e
  same : ∀ s a, s.pos ≤ s.data.length → (m s).1 = .ok a →
    ∀ data', data'.take (m s).2.pos = s.data.take (m s).2.pos →
      m ⟨data', s.pos⟩ = (.ok a, ⟨data', (m s).2.pos⟩)

variable {Good : ε → Prop} {m : Prog Reader ε α} {f : α → Prog Reader ε β}

namespace Bounded

lemma pure (a : α) : Bounded Good (Pure.pure a : Prog Reader ε α) where
  data _ := rfl
  pos _ h := ⟨le_rfl, h⟩
  error _ _ _ h := nomatch h
  same _ _ _ h _ _ := by
    obtain rfl := Except.ok.inj h
    rfl

lemma position : Bounded Good (Prog.read Reader.pos : Prog Reader ε ℕ) where
  data _ := rfl
  pos _ h := ⟨le_rfl, h⟩
  error _ _ _ h := nomatch h
  same _ _ _ h _ _ := by
    obtain rfl := Except.ok.inj h
    rfl

lemma raise {e : ε} (he : Good e) : Bounded Good (Prog.raise e : Prog Reader ε α) where
  data _ := rfl
  pos _ h := ⟨le_rfl, h⟩
  error _ _ _ h := by
    obtain rfl := Except.error.inj h
    exact he
  same _ _ _ h := nomatch h

lemma raiseIf {c : Prop} [Decidable c] {e : ε} (he : c → Good e) :
    Bounded Good (Prog.raiseIf c e : Prog Reader ε Unit) := by
  by_cases h : c
  · have : (Prog.raiseIf c e : Prog Reader ε Unit) = Prog.raise e := by
      funext s
      simp [Prog.raiseIf, h]
    rw [this]
    exact raise (he h)
  · have : (Prog.raiseIf c e : Prog Reader ε Unit) = Pure.pure () := by
      funext s
      simp [Prog.raiseIf, h, Prog.pure_run]
    rw [this]
    exact pure ()

/-- What follows may rely on what the first part returns. -/
theorem bind_of (hm : Bounded Good m) (hf : ∀ a s s', m s = (.ok a, s') → Bounded Good (f a)) :
    Bounded Good (m >>= f) where
  data s := by
    rcases h : m s with ⟨e | a, s'⟩
    · rw [Prog.bind_run_error h]
      simpa [h] using hm.data s
    · rw [Prog.bind_run_ok h]
      have := hm.data s
      rw [h] at this
      exact ((hf a s s' h).data s').trans this
  pos s hs := by
    have hp := hm.pos s hs
    have hd := hm.data s
    rcases h : m s with ⟨e | a, s'⟩
    · rw [Prog.bind_run_error h]
      rw [h] at hp
      exact hp
    · rw [Prog.bind_run_ok h]
      rw [h] at hp hd
      simp only at hp hd
      have := (hf a s s' h).pos s' (by rw [hd]; exact hp.2)
      rw [hd] at this
      exact ⟨hp.1.trans this.1, this.2⟩
  error s e hs he := by
    have hp := hm.pos s hs
    have hd := hm.data s
    rcases h : m s with ⟨e' | a, s'⟩
    · rw [Prog.bind_run_error h] at he
      obtain rfl := Except.error.inj he
      exact hm.error s _ hs (by rw [h])
    · rw [Prog.bind_run_ok h] at he
      rw [h] at hp hd
      simp only at hp hd
      exact (hf a s s' h).error s' e (by rw [hd]; exact hp.2) he
  same s b hs hb data' htake := by
    have hp := hm.pos s hs
    have hd := hm.data s
    rcases h : m s with ⟨e' | a, s'⟩
    · rw [Prog.bind_run_error h] at hb
      exact nomatch hb
    · rw [Prog.bind_run_ok h] at hb htake ⊢
      rw [h] at hp hd
      simp only at hp hd
      have hs' : s'.pos ≤ s'.data.length := by
        rw [hd]
        exact hp.2
      have hpos := (hf a s s' h).pos s' hs'
      -- what the first part read is part of what the whole read
      have hfirst : data'.take s'.pos = s.data.take s'.pos := by
        have := congrArg (List.take s'.pos) htake
        rwa [List.take_take, List.take_take, min_eq_left hpos.1] at this
      have h₁ := hm.same s a hs (by rw [h]) data' (by rw [h]; exact hfirst)
      rw [h] at h₁
      rw [Prog.bind_run_ok h₁]
      exact (hf a s s' h).same s' b hs' hb data' (by rw [hd]; exact htake)

lemma bind (hm : Bounded Good m) (hf : ∀ a, Bounded Good (f a)) : Bounded Good (m >>= f) :=
  hm.bind_of fun a _ _ _ => hf a

lemma take {short : ℕ → ℕ → ℕ → ε} (hs : ∀ n o l, Good (short n o l)) (count : ℕ) :
    Bounded Good (Reader.take short count) where
  data s := by
    unfold Reader.take
    split_ifs <;> rfl
  pos s h := by
    unfold Reader.take
    split_ifs with hc
    · exact ⟨le_rfl, h⟩
    · exact ⟨Nat.le_add_right _ _, not_lt.mp hc⟩
  error s e _ he := by
    unfold Reader.take at he
    split_ifs at he with hc
    obtain rfl := Except.error.inj he
    exact hs _ _ _
  same s a hpos ha data' htake := by
    unfold Reader.take at ha htake ⊢
    split_ifs at ha htake with hc
    simp only at ha htake
    obtain rfl := Except.ok.inj ha
    have hlen : s.pos + count ≤ data'.length := by
      have := congrArg List.length htake
      simp only [List.length_take] at this
      omega
    have hdrop := congrArg (List.drop s.pos) htake
    simp only [List.drop_take, Nat.add_sub_cancel_left] at hdrop
    simp only [if_neg (not_lt.mpr hlen), if_neg hc, hdrop]

end Bounded

end Bounded

end Reader

end PumpGrok
