import PumpGrok.Risk.Breakers
import PumpGrok.Lib.Runs

/-!
Runs of a breaker set over its ledger, and how its memory and its rows agree.

A breaker's life is read off three fields: when it opened, whether it is half-open, and its
failure count. Between two readings of its state an operation leaves them, opens the breaker
within its cooldown, or closes it; what the ledger must record follows from which.
-/

namespace PumpGrok

namespace Breaker

variable {c : BreakerConfig} {now : ℤ} {b b' b'' : Breaker}

/-- A closed breaker has no failures on count, a half-open one is a single failure short. -/
def Coherent (c : BreakerConfig) (b : Breaker) : Prop :=
  b.openedAt = none → b.consecutiveFailures = if b.halfOpen then c.threshold - 1 else 0

/-- No expiry is due. -/
def Settled (c : BreakerConfig) (now : ℤ) (b : Breaker) : Prop :=
  ∀ t ∈ b.openedAt, now - t < c.cooldown

def OpenedBy (c : BreakerConfig) (now : ℤ) (b : Breaker) : Prop :=
  ∃ t, b.openedAt = some t ∧ now - t < c.cooldown

def Closed (b : Breaker) : Prop :=
  b.openedAt = none ∧ b.halfOpen = false ∧ b.consecutiveFailures = 0

def SameLife (b b' : Breaker) : Prop :=
  b'.openedAt = b.openedAt ∧ b'.halfOpen = b.halfOpen ∧
    b'.consecutiveFailures = b.consecutiveFailures

/-- What an operation does to the life of a breaker. -/
def Moves (c : BreakerConfig) (now : ℤ) (b b' : Breaker) : Prop :=
  SameLife b b' ∨ OpenedBy c now b' ∨ Closed b'

lemma Moves.same (now : ℤ) (h : SameLife b b') : Moves c now b b' := .inl h

lemma Moves.refl (c : BreakerConfig) (now : ℤ) (b : Breaker) : Moves c now b b :=
  Moves.same now ⟨rfl, rfl, rfl⟩

lemma expire_settled (c : BreakerConfig) (now : ℤ) (b : Breaker) :
    Settled c now (b.expire c now) := by
  unfold expire
  rcases h : b.openedAt with - | t
  · simp [Settled, h]
  · simp only
    split_ifs with hc
    · simp [Settled]
    · simpa [Settled, h] using hc

lemma expire_eq (h : Settled c now b) : b.expire c now = b := by
  unfold expire
  rcases hb : b.openedAt with - | t
  · rfl
  · have := h t hb
    simp only
    rw [if_neg (by omega)]

lemma expire_blocking (c : BreakerConfig) (now : ℤ) (b : Breaker) :
    (b.expire c now).Blocking ↔ b.Blocking := by
  unfold expire
  rcases h : b.openedAt with - | t
  · rfl
  · simp only
    split_ifs
    · simp [Blocking, h]
    · rfl

lemma expire_probeInflight (c : BreakerConfig) (now : ℤ) (b : Breaker) :
    (b.expire c now).probeInflight = b.probeInflight := by
  unfold expire
  split
  · rfl
  · split_ifs <;> rfl

lemma Coherent.expire (h : Coherent c b) (now : ℤ) : Coherent c (b.expire c now) := by
  unfold Breaker.expire
  split
  · exact h
  · split_ifs
    · intro
      simp
    · exact h

lemma Moves.settled (hb : Settled c now b) (h : Moves c now b b') : Settled c now b' := by
  rcases h with ⟨ho, -, -⟩ | ⟨t, ht, hc⟩ | ⟨ho, -, -⟩
  · intro t ht
    exact hb t (ho ▸ ht)
  · intro u hu
    have : t = u := by simpa [ht] using hu
    omega
  · intro t ht
    simp [ho] at ht

lemma Moves.coherent (hb : Coherent c b) (h : Moves c now b b') : Coherent c b' := by
  rcases h with ⟨ho, hh, hf⟩ | ⟨t, ht, -⟩ | ⟨-, hh, hf⟩
  · intro hn
    rw [hf, hh]
    exact hb (ho ▸ hn)
  · intro hn
    simp [ht] at hn
  · intro
    simp [hh, hf]

lemma Moves.trans (h : Moves c now b b') (h' : Moves c now b' b'') : Moves c now b b'' := by
  rcases h' with ⟨ho, hh, hf⟩ | ho | hc
  · rcases h with ⟨go, gh, gf⟩ | ⟨t, ht, hc⟩ | ⟨go, gh, gf⟩
    · exact .inl ⟨ho.trans go, hh.trans gh, hf.trans gf⟩
    · exact .inr (.inl ⟨t, ho.trans ht, hc⟩)
    · exact .inr (.inr ⟨ho.trans go, hh.trans gh, hf.trans gf⟩)
  · exact .inr (.inl ho)
  · exact .inr (.inr hc)

lemma isOpen_eq (h : Settled c now b) : b.isOpen c now = b.openedAt.isSome := by
  rw [isOpen, expire_eq h]

/-- The state of a settled, coherent breaker. -/
lemma state_eq (h : Settled c now b) (hc : Coherent c b) :
    b.state c now =
      if b.openedAt.isSome then .opened
      else if b.halfOpen = true ∧ c.threshold ≠ 1 ∧ c.threshold ≠ 0 then .halfOpen
      else .closed := by
  unfold state
  rw [isOpen_eq h, expire_eq h]
  rcases ho : b.openedAt with - | t
  · have hf := hc ho
    rcases hh : b.halfOpen with - | -
    · simp [hf, hh]
    · simp only [hf, hh, if_true, Option.isSome_none]
      rcases hth : c.threshold with - | - | k <;> simp
  · simp

lemma moves_recordSuccess (c : BreakerConfig) (now : ℤ) (b : Breaker) :
    Moves c now b (b.recordSuccess c) := by
  unfold recordSuccess
  split_ifs
  · exact .inr (.inr ⟨rfl, rfl, rfl⟩)
  · exact .inl ⟨rfl, rfl, rfl⟩

lemma moves_trip {at_ : ℤ} (b : Breaker) (h : now - at_ < c.cooldown) :
    Moves c now b (b.trip c at_) :=
  .inr (.inl ⟨at_, rfl, h⟩)

end Breaker

open Breaker

/-! ### Operations on one breaker -/

lemma cooldown_pos (n : BreakerName) : 0 < (breakerConfig n).cooldown := by
  cases n <;> simp [breakerConfig]

lemma moves_noteTick (now ts : ℤ) (b : DataStaleBreaker) :
    Moves (breakerConfig .dataStale) now b.toBreaker (b.noteTick ts).toBreaker := by
  refine Moves.trans ?_ (moves_recordSuccess _ now _)
  split_ifs
  · exact .inl ⟨rfl, rfl, rfl⟩
  · exact Moves.refl _ _ _

lemma moves_noteMiss {now : ℤ} {b : DataStaleBreaker}
    (h : Settled (breakerConfig .dataStale) now b.toBreaker) :
    Moves (breakerConfig .dataStale) now b.toBreaker (b.noteMiss now).toBreaker := by
  unfold DataStaleBreaker.noteMiss DataStaleBreaker.config
  simp only [expire_eq h]
  split_ifs
  · exact Moves.refl _ _ _
  · exact moves_trip _ (by simpa using cooldown_pos .dataStale)
  · exact Moves.refl _ _ _

lemma moves_evaluate_dataStale {now : ℤ} {b : DataStaleBreaker}
    (h : Settled (breakerConfig .dataStale) now b.toBreaker) :
    Moves (breakerConfig .dataStale) now b.toBreaker (b.evaluate now).toBreaker := by
  unfold DataStaleBreaker.evaluate DataStaleBreaker.config
  simp only [expire_eq h]
  split_ifs
  · exact Moves.refl _ _ _
  · exact moves_trip _ (by simpa using cooldown_pos .dataStale)
  · exact Moves.refl _ _ _

lemma moves_evaluate_lossVelocity {now : ℤ} {b : LossVelocityBreaker}
    (h : Settled (breakerConfig .lossVelocity) now b.toBreaker) :
    Moves (breakerConfig .lossVelocity) now b.toBreaker (b.evaluate now).toBreaker := by
  unfold LossVelocityBreaker.evaluate LossVelocityBreaker.config
  simp only [expire_eq h]
  split_ifs
  · exact moves_recordSuccess _ _ _
  · exact Moves.refl _ _ _
  · split
    · exact Moves.refl _ _ _
    · split_ifs
      · exact moves_trip _ (by simpa using cooldown_pos .lossVelocity)
      · exact Moves.refl _ _ _

lemma moves_noteReject {now ts : ℤ} {b : ExecErrorsBreaker} (reason : Reason)
    (h : Settled (breakerConfig .execErrors) now b.toBreaker)
    (ht : now - ts ≤ ExecErrorsBreaker.window) :
    Moves (breakerConfig .execErrors) now b.toBreaker (b.noteReject now ts reason).toBreaker := by
  unfold ExecErrorsBreaker.noteReject ExecErrorsBreaker.config
  simp only [expire_eq h]
  split_ifs
  · exact Moves.refl _ _ _
  · exact Moves.refl _ _ _
  · refine moves_trip _ ?_
    -- a counted reject is younger than the cooldown it starts
    have : now - ts ≤ 600000000 := ht
    have hc : (breakerConfig .execErrors).cooldown = 900000000 := rfl
    omega
  · exact Moves.refl _ _ _

lemma moves_resolveProbe {c : BreakerConfig} {now : ℤ} {ok : Bool} {b b' : Breaker}
    (hc : 0 < c.cooldown) (h : b.resolveProbe c now ok = .ok b') : Moves c now b b' := by
  unfold resolveProbe at h
  split_ifs at h
  · cases h
    exact Moves.trans (.inl ⟨rfl, rfl, rfl⟩) (moves_recordSuccess c now _)
  · cases h
    exact .inr (.inl ⟨now, rfl, by simpa using hc⟩)

lemma admitProbe_sameLife (c : BreakerConfig) (now : ℤ) (b : Breaker) :
    SameLife (b.expire c now) (b.admitProbe c now).2 := by
  unfold admitProbe
  simp only
  split_ifs <;> exact ⟨rfl, rfl, rfl⟩

namespace BreakerSet

lemma update_byName (s : BreakerSet) (n : BreakerName) : s.update (s.byName n) n = s := by
  cases n <;> rfl

/-! ### Feeding the windows -/

/-- Feeding rows moves the execution-error breaker only. -/
lemma observe_spec {now : ℤ} {s : BreakerSet} (e : Event)
    (h : Settled (breakerConfig .execErrors) now s.execErrors.toBreaker) :
    (s.observe now e).dataStale = s.dataStale ∧
    (s.observe now e).lossVelocity.toBreaker = s.lossVelocity.toBreaker ∧
    Moves (breakerConfig .execErrors) now s.execErrors.toBreaker
      (s.observe now e).execErrors.toBreaker := by
  unfold observe
  split
  · split_ifs with ht
    · exact ⟨rfl, rfl, moves_noteReject _ h ht⟩
    · exact ⟨rfl, rfl, Moves.refl _ _ _⟩
  · split_ifs
    · exact ⟨rfl, rfl, Moves.refl _ _ _⟩
    · exact ⟨rfl, rfl, Moves.refl _ _ _⟩
  · exact ⟨rfl, rfl, Moves.refl _ _ _⟩

lemma observe_foldl_spec {now : ℤ} (es : List Event) {s : BreakerSet}
    (h : Settled (breakerConfig .execErrors) now s.execErrors.toBreaker) :
    (es.foldl (observe now) s).dataStale = s.dataStale ∧
    (es.foldl (observe now) s).lossVelocity.toBreaker = s.lossVelocity.toBreaker ∧
    Moves (breakerConfig .execErrors) now s.execErrors.toBreaker
      (es.foldl (observe now) s).execErrors.toBreaker := by
  induction es generalizing s with
  | nil => exact ⟨rfl, rfl, Moves.refl _ _ _⟩
  | cons e es ih =>
    obtain ⟨h₁, h₂, h₃⟩ := observe_spec e h
    obtain ⟨i₁, i₂, i₃⟩ := ih (h₃.settled h)
    exact ⟨i₁.trans h₁, i₂.trans h₂, h₃.trans i₃⟩

lemma observeAll_spec (now : ℤ) (es : List Event) (equityNow : ℤ) {s : BreakerSet}
    (h : Settled (breakerConfig .execErrors) now s.execErrors.toBreaker) (n : BreakerName) :
    Moves (breakerConfig n) now (s.byName n) ((s.observeAll now es equityNow).byName n) := by
  obtain ⟨h₁, h₂, h₃⟩ := observe_foldl_spec es (s := { s with
    execErrors := { s.execErrors with rejects := [] }
    lossVelocity := { s.lossVelocity with points := [] } }) h
  cases n with
  | dataStale => exact .inl (by simp only [observeAll, byName, h₁]; exact ⟨rfl, rfl, rfl⟩)
  | lossVelocity =>
    refine .inl ?_
    show SameLife s.lossVelocity.toBreaker _
    rw [show (s.observeAll now es equityNow).byName .lossVelocity =
      s.lossVelocity.toBreaker from h₂]
    exact ⟨rfl, rfl, rfl⟩
  | execErrors => exact h₃

/-! ### Rows of the breakers -/

lemma openSince_append (es fs : List Event) (n : BreakerName) :
    openSince (es ++ fs) n = fs.foldl (seeRow n) (openSince es n) := by
  simp [openSince]

/-- The store takes the rows of the breakers: it refuses nothing and no later key is used. -/
structure Writable (st : LedgerStore) : Prop where
  consistent : st.inconsistent = false
  trips : ∀ e ∈ st.read, ∀ n k, e.key = .breakerTrip n k → k ≤ tripCount st.read n
  resets : ∀ e ∈ st.read, ∀ n k, e.key = .breakerReset n k → k ≤ resetCount st.read n

/-- Rows other writers append. -/
def Foreign (row : Row) : Prop :=
  (∀ p, row.payload ≠ .breakerTripped p) ∧ (∀ p, row.payload ≠ .breakerReset p) ∧
  (∀ n k, row.key ≠ .breakerTrip n k) ∧ (∀ n k, row.key ≠ .breakerReset n k)

variable {st : LedgerStore} {now ts : ℤ} {n : BreakerName} {source : EventSource} {po : Bool}

lemma appendSuppressing_ok {row : Row} (hc : st.inconsistent = false)
    (hk : st.byKey row.key = none) :
    LedgerStore.appendSuppressing [.integrityError] row st = (.ok (), st.commit [row]) := by
  rcases LedgerStore.appendSuppressing_run [.integrityError] row st with ⟨-, -, h⟩ | ⟨x, h, -⟩
  · exact h
  · obtain ⟨-, h | h⟩ := LedgerStore.append_error_iff.mp h
    · simp [hc] at h
    · exact absurd (LedgerStore.fresh_singleton.mpr hk) h.2.1

lemma openSince_commit (st : LedgerStore) (row : Row) (n : BreakerName) :
    openSince (st.commit [row]).read n =
      seeRow n (openSince st.read n) { row with seq := st.count + 1 } := by
  rw [LedgerStore.read_commit, openSince_append]
  rfl

lemma counts_commit (st : LedgerStore) (row : Row) (n : BreakerName) :
    tripCount (st.commit [row]).read n =
      tripCount st.read n + (if isTrip n { row with seq := st.count + 1 } then 1 else 0) ∧
    resetCount (st.commit [row]).read n =
      resetCount st.read n + (if isReset n { row with seq := st.count + 1 } then 1 else 0) := by
  simp [tripCount, resetCount, LedgerStore.stamp, List.countP_cons]

lemma Writable.commit (hw : Writable st) {row : Row}
    (ht : ∀ m k, row.key = .breakerTrip m k →
      k ≤ tripCount st.read m + (if isTrip m { row with seq := st.count + 1 } then 1 else 0))
    (hr : ∀ m k, row.key = .breakerReset m k →
      k ≤ resetCount st.read m + (if isReset m { row with seq := st.count + 1 } then 1 else 0)) :
    Writable (st.commit [row]) where
  consistent := hw.consistent
  trips e he m k hk := by
    rw [(counts_commit st row m).1]
    rw [LedgerStore.read_commit, List.mem_append] at he
    rcases he with he | he
    · exact le_trans (hw.trips e he m k hk) (Nat.le_add_right _ _)
    · obtain rfl : e = { row with seq := st.count + 1 } := by simpa [LedgerStore.stamp] using he
      exact ht m k hk
  resets e he m k hk := by
    rw [(counts_commit st row m).2]
    rw [LedgerStore.read_commit, List.mem_append] at he
    rcases he with he | he
    · exact le_trans (hw.resets e he m k hk) (Nat.le_add_right _ _)
    · obtain rfl : e = { row with seq := st.count + 1 } := by simpa [LedgerStore.stamp] using he
      exact hr m k hk

lemma appendTrip_run (hw : Writable st) :
    appendTrip n ts source st = (.ok (), st.commit [tripRow n ts source st]) :=
  appendSuppressing_ok hw.consistent <| LedgerStore.byKey_eq_none_iff.mpr fun e he hk => by
    have := hw.trips e he n _ hk
    omega

lemma appendReset_run (hw : Writable st) :
    appendReset n ts source po st = (.ok (), st.commit [resetRow n ts source po st]) :=
  appendSuppressing_ok hw.consistent <| LedgerStore.byKey_eq_none_iff.mpr fun e he hk => by
    have := hw.resets e he n _ hk
    omega

lemma Writable.trip (hw : Writable st) (n : BreakerName) (ts : ℤ) (source : EventSource) :
    Writable (st.commit [tripRow n ts source st]) := by
  refine hw.commit ?_ ?_
  · intro m k hk
    simp only [tripRow, Key.breakerTrip.injEq] at hk
    obtain ⟨rfl, rfl⟩ := hk
    simp [tripRow, isTrip]
  · intro m k hk
    simp [tripRow] at hk

lemma Writable.reset (hw : Writable st) (n : BreakerName) (ts : ℤ) (source : EventSource)
    (po : Bool) : Writable (st.commit [resetRow n ts source po st]) := by
  refine hw.commit ?_ ?_
  · intro m k hk
    simp [resetRow] at hk
  · intro m k hk
    simp only [resetRow, Key.breakerReset.injEq] at hk
    obtain ⟨rfl, rfl⟩ := hk
    simp [resetRow, isReset]

lemma openSince_trip (m : BreakerName) :
    openSince (st.commit [tripRow n ts source st]).read m =
      if m = n then some ts else openSince st.read m := by
  rw [openSince_commit]
  simp [seeRow, isTrip, isReset, tripRow, eq_comm]

lemma openSince_reset (m : BreakerName) :
    openSince (st.commit [resetRow n ts source po st]).read m =
      if m = n then none else openSince st.read m := by
  rw [openSince_commit]
  simp [seeRow, isTrip, isReset, resetRow, eq_comm]

/-- What `transition` records: the state now, unless it is the state before. -/
def recorded (before after : BreakerState) (ts : ℤ) (since : Option ℤ) : Option ℤ :=
  if after = before then since
  else match after with
    | .opened => some ts
    | .closed => none
    | .halfOpen => since

lemma transition_spec {s : BreakerSet} (ts : ℤ) (source : EventSource) (po : Bool)
    (before : BreakerState)
    (hs : Settled (breakerConfig n) now (s.byName n)) (hw : Writable st) :
    ∃ st', transition now n before ts source po (s, st) = (.ok (), s, st') ∧ Writable st' ∧
      st.read <+: st'.read ∧
      ∀ m, openSince st'.read m =
        if m = n then recorded before (s.state now n) ts (openSince st.read n)
        else openSince st.read m := by
  have hread : readState now n (s, st) = (.ok (s.state now n), s, st) := by
    unfold readState
    rw [expire_eq hs, update_byName]
  unfold transition
  rw [Prog.bind_run_ok hread]
  by_cases hb : s.state now n = before
  · refine ⟨st, ?_, hw, List.prefix_refl _, fun m => ?_⟩
    · rw [if_pos hb]
      rfl
    · simp only [recorded, if_pos hb]
      split_ifs with hm
      · rw [hm]
      · rfl
  · rw [if_neg hb]
    rcases ho : s.state now n with - | - | -
    · refine ⟨_, ?_, hw.trip n ts source, ?_, fun m => ?_⟩
      · simp only [if_true, onStore, Prog.on]
        rw [appendTrip_run hw]
      · simp
      · rw [openSince_trip]
        simp [recorded, ho ▸ hb]
    · refine ⟨st, rfl, hw, List.prefix_refl _, fun m => ?_⟩
      simp only [recorded, if_neg (ho ▸ hb)]
      split_ifs with hm
      · rw [hm]
      · rfl
    · refine ⟨_, ?_, hw.reset n ts source po, ?_, fun m => ?_⟩
      · simp only [reduceCtorEq, if_false, if_true, onStore, Prog.on]
        rw [appendReset_run hw]
      · simp
      · rw [openSince_reset]
        simp [recorded, ho ▸ hb]

/-- Closing from half-open without a change of the state read: the failure count of a
single-failure breaker reads closed while it is half-open. -/
def SilentClose (c : BreakerConfig) (b b' : Breaker) : Prop :=
  c.threshold = 1 ∧ b.openedAt = none ∧ b.halfOpen = true ∧ ¬ b'.Blocking

/-- **One breaker and its rows.** After a recorded operation the breaker blocks exactly when
its latest row is a trip, unless it closed silently. -/
lemma recorded_iff {c : BreakerConfig} {b b' : Breaker} {since : Option ℤ} (hth : c.threshold ≠ 0)
    (hs : Settled c now b) (hc : Coherent c b) (hm : Moves c now b b')
    (hb : b.Blocking ↔ since.isSome) :
    (b'.Blocking ↔ (recorded (b.state c now) (b'.state c now) ts since).isSome) ↔
      ¬ SilentClose c b b' := by
  have hstate := state_eq hs hc
  have hstate' := state_eq (hm.settled hs) (hm.coherent hc)
  rcases hm with ⟨ho, hh, hf⟩ | ⟨t, ht, -⟩ | ⟨ho, hh, hf⟩
  · -- nothing moved
    have hsame : b'.state c now = b.state c now := by rw [hstate, hstate', ho, hh]
    have hbb : b'.Blocking ↔ b.Blocking := by simp [Blocking, ho, hh]
    have : ¬ SilentClose c b b' := by
      rintro ⟨-, -, h, hn⟩
      exact hn (hbb.mpr (.inr h))
    simp [recorded, hsame, hbb, hb, this]
  · -- it opened
    have hb' : b'.Blocking := .inl (by simp [ht])
    have hopen : b'.state c now = .opened := by simp [hstate', ht]
    have : ¬ SilentClose c b b' := fun h => h.2.2.2 hb'
    simp only [this, not_false_iff, iff_true, hb', true_iff, recorded, hopen]
    split_ifs with he
    · rw [← hb]
      refine .inl ?_
      rw [← he] at hstate
      by_contra hn
      simp only [hn, if_false] at hstate
      split_ifs at hstate
    · rfl
  · -- it closed
    have hb' : ¬ b'.Blocking := by simp [Blocking, ho, hh]
    have hclosed : b'.state c now = .closed := by simp [hstate', ho, hh]
    simp only [hb', false_iff, recorded, hclosed]
    split_ifs with he
    · rw [← he] at hstate
      rw [← hb]
      refine not_congr ⟨fun h => ?_, fun h => .inr h.2.2.1⟩
      have hnone : b.openedAt = none := by
        by_contra hn
        simp [Option.isSome_iff_ne_none.mpr hn] at hstate
      have hhalf : b.halfOpen = true := by simpa [Blocking, hnone] using h
      refine ⟨?_, hnone, hhalf, hb'⟩
      by_contra h1
      simp [hnone, hhalf, h1, hth] at hstate
    · simp only [Option.isSome_none, Bool.false_eq_true, not_false_iff, true_iff]
      rintro ⟨h1, hn, hhalf, -⟩
      exact he (by simp [hstate, hn, h1])

end BreakerSet

end PumpGrok
