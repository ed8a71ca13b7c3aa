import PumpGrok.Risk.BreakerLedger
import PumpGrok.Risk.EngineRows

/-!
Whole runs of a breaker set: ticks, misses, refreshes, expiries, probes and their outcomes, and
the rows of other writers in between. The breakers that block entries in memory are those the
rows name, as long as the loss-velocity breaker does not close from half-open.
-/

namespace PumpGrok

open Breaker BreakerSet

structure BreakerRun where
  now : ℤ
  set : BreakerSet
  store : LedgerStore

inductive BreakerAction where
  | advance (dt : ℤ)
  | tick (ts : ℤ)
  | miss
  | refresh (equityNow : ℤ)
  | look
  | sync
  | probe (n : BreakerName)
  | outcome (n : BreakerName) (ok : Bool)
  | observed (row : Row) (foreign : Foreign row)

namespace BreakerRun

/-- A set on an empty ledger. -/
def start (now : ℤ) : BreakerRun := { now := now, set := {}, store := {} }

def perform (m : Prog Bound Exc Unit) (s : BreakerRun) : BreakerRun :=
  { s with set := (m (s.set, s.store)).2.1, store := (m (s.set, s.store)).2.2 }

def step (source : EventSource) (s : BreakerRun) : BreakerAction → BreakerRun
  | .advance dt => { s with now := s.now + dt }
  | .tick ts => s.perform (noteTick s.now ts s.now source)
  | .miss => s.perform (noteMiss s.now s.now source)
  | .refresh equityNow => s.perform (BreakerSet.refresh s.now s.now source equityNow)
  | .look => { s with set := s.set.expireAll s.now }
  | .sync => { s with set := s.set.syncFromLedger s.now s.store.read }
  | .probe n => { s with set := (s.set.admitProbe s.now n).2 }
  | .outcome n ok => s.perform (BreakerSet.resolveProbe s.now n ok s.now source)
  | .observed row _ => { s with store := (LedgerStore.append row s.store).2 }

/-- The names that block entries in memory are those a restart would block. -/
def Agrees (s : BreakerRun) : Prop :=
  ∀ n, (s.set.byName n).Blocking ↔ ((rebuild s.store.read).byName n).Blocking

/-- The loss-velocity breaker is half-open once its expiry is read. -/
def LossHalfOpen (s : BreakerRun) : Prop :=
  ((s.set.byName .lossVelocity).expire (breakerConfig .lossVelocity) s.now).openedAt = none ∧
  ((s.set.byName .lossVelocity).expire (breakerConfig .lossVelocity) s.now).halfOpen = true

/-- The equity points a refresh sees. -/
def lossPoints (now : ℤ) (events : List Event) (equityNow : ℤ) : List (ℤ × ℤ) :=
  (observeAll now events equityNow {}).lossVelocity.points

/-- The step does not close the loss-velocity breaker from half-open: neither by a calm short
window nor by a successful probe. -/
def LossNotClosed (s : BreakerRun) : BreakerAction → Prop
  | .refresh equityNow =>
    ¬ (s.LossHalfOpen ∧ LossVelocityBreaker.Calm s.now (lossPoints s.now s.store.read equityNow))
  | .outcome n ok =>
    ¬ (s.LossHalfOpen ∧ n = .lossVelocity ∧ ok = true ∧ s.set.lossVelocity.probeInflight = true)
  | _ => True

/-! ### Rebuilding -/

lemma rebuild_blocking (es : List Event) (n : BreakerName) :
    ((rebuild es).byName n).Blocking ↔ (openSince es n).isSome := by
  unfold rebuild
  simp only [breakerNames, List.foldl_cons, List.foldl_nil]
  cases n <;>
    rcases h₁ : openSince es .dataStale with - | t₁ <;>
    rcases h₂ : openSince es .lossVelocity with - | t₂ <;>
    rcases h₃ : openSince es .execErrors with - | t₃ <;>
    simp [Blocking, byName, update]

/-- Memory and rows agree. -/
def Recorded (s : BreakerSet) (st : LedgerStore) : Prop :=
  ∀ n, (s.byName n).Blocking ↔ (openSince st.read n).isSome

lemma agrees_iff (s : BreakerRun) : s.Agrees ↔ Recorded s.set s.store :=
  forall_congr' fun n => by rw [rebuild_blocking]

def Kept (s : BreakerRun) : Prop :=
  Writable s.store ∧ ∀ n, Coherent (breakerConfig n) (s.set.byName n)

lemma threshold_ne (n : BreakerName) : (breakerConfig n).threshold ≠ 0 := by
  cases n <;> simp [breakerConfig]

lemma state_expire (c : BreakerConfig) (now : ℤ) (b : Breaker) :
    (b.expire c now).state c now = b.state c now := by
  unfold Breaker.state isOpen
  rw [expire_eq (expire_settled c now b)]

variable {s : BreakerSet} {st : LedgerStore} {now ts : ℤ} {n : BreakerName}
  {source : EventSource} {po : Bool}

/-! ### A recorded operation on one breaker -/

/-- A read of the state, a change of one breaker, and the record of it. -/
lemma operation_spec (now ts : ℤ) (source : EventSource) (po : Bool) {f : BreakerSet → BreakerSet}
    {s₁ : BreakerSet}
    (h₁ : s₁ = s.update ((s.byName n).expire (breakerConfig n) now) n)
    (hw : Writable st)
    (hm : Moves (breakerConfig n) now ((s.byName n).expire (breakerConfig n) now)
      ((f s₁).byName n)) :
    ∃ st', (do
        let before ← readState now n
        Prog.modify fun b : Bound => (f b.1, b.2)
        transition now n before ts source po : Prog Bound Exc Unit) (s, st) =
          (.ok (), f s₁, st') ∧
      Writable st' ∧
      ∀ m, openSince st'.read m =
        if m = n then
          recorded (((s.byName n).expire (breakerConfig n) now).state (breakerConfig n) now)
            (((f s₁).byName n).state (breakerConfig n) now) ts (openSince st.read n)
        else openSince st.read m := by
  have hset : Settled (breakerConfig n) now ((f s₁).byName n) :=
    hm.settled (expire_settled _ _ _)
  obtain ⟨st', hr, hw', -, ho⟩ :=
    transition_spec ts source po (s.state now n) hset hw
  refine ⟨st', ?_, hw', ?_⟩
  · have hread : readState now n (s, st) = (.ok (s.state now n), s₁, st) := by
      rw [h₁]
      rfl
    rw [Prog.bind_run_ok hread, Prog.bind_run_ok (Prog.modify_run _ _)]
    exact hr
  · rw [state_expire]
    exact ho

/-- After a change of one breaker, memory and rows agree when they do for it. -/
lemma recorded_of_one {s' : BreakerSet} {st' : LedgerStore} (h : Recorded s st)
    (hs : ∀ m ≠ n, (s'.byName m).Blocking ↔ (s.byName m).Blocking)
    (ho : ∀ m ≠ n, openSince st'.read m = openSince st.read m) :
    Recorded s' st' ↔ ((s'.byName n).Blocking ↔ (openSince st'.read n).isSome) := by
  refine ⟨fun h' => h' n, fun hn m => ?_⟩
  by_cases hm : m = n
  · rw [hm]
    exact hn
  · rw [hs m hm, ho m hm]
    exact h m

/-- A run of `m` keeps the invariants, and keeps the agreement exactly when `C` holds. -/
def KeepsRecord (m : Prog Bound Exc Unit) (s : BreakerSet) (st : LedgerStore) (C : Prop) : Prop :=
  (Writable (m (s, st)).2.2 ∧ ∀ k, Coherent (breakerConfig k) ((m (s, st)).2.1.byName k)) ∧
    (Recorded s st → (Recorded (m (s, st)).2.1 (m (s, st)).2.2 ↔ C))

lemma KeepsRecord.congr {m : Prog Bound Exc Unit} {C D : Prop} (h : KeepsRecord m s st C)
    (hcd : C ↔ D) : KeepsRecord m s st D :=
  ⟨h.1, fun hr => (h.2 hr).trans hcd⟩

variable (hc : ∀ m, Coherent (breakerConfig m) (s.byName m))
include hc

lemma operation_kept {m : Prog Bound Exc Unit} (s' : BreakerSet) {st' : LedgerStore}
    (hrun : m (s, st) = (.ok (), s', st')) (hw' : Writable st')
    (hm : Moves (breakerConfig n) now ((s.byName n).expire (breakerConfig n) now) (s'.byName n))
    (hother : ∀ k ≠ n, s'.byName k = s.byName k)
    (ho : ∀ k, openSince st'.read k =
      if k = n then
        recorded (((s.byName n).expire (breakerConfig n) now).state (breakerConfig n) now)
        ((s'.byName n).state (breakerConfig n) now) ts (openSince st.read n)
      else openSince st.read k) :
    KeepsRecord m s st (¬ SilentClose (breakerConfig n)
      ((s.byName n).expire (breakerConfig n) now) (s'.byName n)) := by
  unfold KeepsRecord
  rw [hrun]
  refine ⟨⟨hw', fun k => ?_⟩, fun hr => ?_⟩
  · by_cases hk : k = n
    · rw [hk]
      exact hm.coherent ((hc n).expire now)
    · show Coherent _ (s'.byName k)
      rw [hother k hk]
      exact hc k
  · rw [recorded_of_one (n := n) hr (fun k hk => by rw [hother k hk])
      (fun k hk => by rw [ho k, if_neg hk]), ho n, if_pos rfl]
    exact recorded_iff (threshold_ne n) (expire_settled _ _ _) ((hc n).expire now) hm
      ((expire_blocking _ _ _).trans (hr n))

variable (hw : Writable st)
include hw

lemma tick_kept (tick tsUtc : ℤ) : KeepsRecord (noteTick now tick tsUtc source) s st True := by
  obtain ⟨st', hr, hw', ho⟩ := operation_spec now tsUtc source false (n := .dataStale) (s := s)
    (f := fun b => { b with dataStale := b.dataStale.noteTick tick }) rfl hw
    (moves_noteTick now tick _)
  refine (operation_kept hc _ hr hw' (moves_noteTick now tick _) ?_ ho).congr ?_
  · intro k hk
    cases k <;> first | exact absurd rfl hk | rfl
  · simp [SilentClose, breakerConfig]

lemma miss_kept (tsUtc : ℤ) : KeepsRecord (noteMiss now tsUtc source) s st True := by
  obtain ⟨st', hr, hw', ho⟩ := operation_spec now tsUtc source false (n := .dataStale) (s := s)
    (f := fun b => { b with dataStale := b.dataStale.noteMiss now }) rfl hw
    (moves_noteMiss (expire_settled _ _ _))
  refine (operation_kept hc _ hr hw' (moves_noteMiss (expire_settled _ _ _)) ?_ ho).congr ?_
  · intro k hk
    cases k <;> first | exact absurd rfl hk | rfl
  · simp [SilentClose, breakerConfig]

omit hw in
/-- A refused probe outcome leaves everything but the expiry. -/
lemma raise_kept (now : ℤ) {x : Exc} {m : Prog Bound Exc Unit} (hw : Writable st)
    (hrun : m (s, st) =
      (.error x, s.update ((s.byName n).expire (breakerConfig n) now) n, st)) :
    KeepsRecord m s st True := by
  unfold KeepsRecord
  rw [hrun]
  refine ⟨⟨hw, fun k => ?_⟩, fun hr => iff_true_intro fun k => ?_⟩
  · simp only [byName_update]
    split_ifs with hk
    · exact (hc n).expire now |> fun h => by rw [hk]; exact h
    · exact hc k
  · simp only [byName_update]
    split_ifs with hk
    · rw [expire_blocking, hk]
      exact hr n
    · exact hr k

lemma outcome_kept (n : BreakerName) (ok : Bool) (tsUtc : ℤ) :
    KeepsRecord (BreakerSet.resolveProbe now n ok tsUtc source) s st
      (¬ (((s.byName .lossVelocity).expire (breakerConfig .lossVelocity) now).openedAt = none ∧
        ((s.byName .lossVelocity).expire (breakerConfig .lossVelocity) now).halfOpen = true ∧
        n = .lossVelocity ∧ ok = true ∧ s.lossVelocity.probeInflight = true)) := by
  set b := (s.byName n).expire (breakerConfig n) now with hb
  have hread : readState now n (s, st) = (.ok (s.state now n), s.update b n, st) := rfl
  rcases hres : b.resolveProbe (breakerConfig n) now ok with x | b'
  · -- no probe in flight
    have hp : b.probeInflight = false := by
      unfold Breaker.resolveProbe at hres
      split_ifs at hres with h
      simpa using h
    refine (raise_kept hc now (n := n) (x := x) hw ?_).congr ?_
    · unfold BreakerSet.resolveProbe
      rw [Prog.bind_run_ok hread]
      refine Prog.bind_run_error ?_
      simp [Prog.resultOf, hres, ← hb]
    · simp only [true_iff, not_and]
      rintro - - rfl -
      rw [hb, expire_probeInflight] at hp
      simpa [byName] using hp
  · have hm : Moves (breakerConfig n) now b b' := moves_resolveProbe (cooldown_pos n) hres
    have hp : b.probeInflight = true := by
      unfold Breaker.resolveProbe at hres
      split_ifs at hres with h <;> simpa using h
    obtain ⟨st', hr, hw', ho⟩ := operation_spec now tsUtc source ok (n := n) (s := s)
      (f := fun a => a.update b' n) rfl hw
      (by simpa using hm)
    refine (operation_kept hc (n := n) ((s.update b n).update b' n) ?_ hw'
      (by simpa using hm) ?_ ho).congr ?_
    · refine Eq.trans ?_ hr
      unfold BreakerSet.resolveProbe
      rw [Prog.bind_run_ok hread, Prog.bind_run_ok hread]
      have : Prog.resultOf (fun a : Bound => (a.1.byName n).resolveProbe (breakerConfig n) now ok)
          (fun b a => (a.1.update b n, a.2)) (s.update b n, st) =
          (.ok (), (s.update b n).update b' n, st) := by
        simp [Prog.resultOf, hres]
      rw [Prog.bind_run_ok this, Prog.bind_run_ok (Prog.modify_run _ _)]
    · intro k hk
      simp [hk]
    · -- a successful probe closes the loss-velocity breaker, a failed one re-opens it
      rw [not_iff_not]
      unfold Breaker.resolveProbe at hres
      rw [if_neg (by simp [hp])] at hres
      have hlp : (s.byName n).probeInflight = true := by rw [← hp, hb, expire_probeInflight]
      cases n with
      | dataStale => simp [SilentClose, breakerConfig]
      | execErrors => simp [SilentClose, breakerConfig]
      | lossVelocity =>
        cases ok with
        | false =>
          simp only [Bool.false_eq_true, if_false, Except.ok.injEq] at hres
          simp [SilentClose, ← hres, Blocking]
        | true =>
          simp only [if_true, Except.ok.injEq] at hres
          have hclosed : ¬ b'.Blocking := by
            rw [← hres]
            simp [recordSuccess, breakerConfig, Blocking]
          have hprobe : s.lossVelocity.probeInflight = true := hlp
          simp [SilentClose, breakerConfig, hclosed, hprobe]

/-! ### Refresh -/

omit hc hw in
lemma evaluate_byName_ne {m : BreakerName} (h : m ≠ n) :
    (s.evaluate now n).byName m = s.byName m := by
  cases n <;> cases m <;> first | exact absurd rfl h | rfl

omit hc hw in
lemma moves_evaluate (h : Settled (breakerConfig n) now (s.byName n)) :
    Moves (breakerConfig n) now (s.byName n) ((s.evaluate now n).byName n) := by
  cases n with
  | dataStale => exact moves_evaluate_dataStale h
  | lossVelocity => exact moves_evaluate_lossVelocity h
  | execErrors => exact Moves.refl _ _ _

omit hc in
lemma refreshOne_spec (source : EventSource) (before : BreakerName → BreakerState) (tsUtc : ℤ)
    (hs : Settled (breakerConfig n) now (s.byName n)) :
    ∃ st', refreshOne now tsUtc source before n (s, st) = (.ok (), s.evaluate now n, st') ∧
      Writable st' ∧
      ∀ m, openSince st'.read m =
        if m = n then recorded (before n) ((s.evaluate now n).state now n) tsUtc
          (openSince st.read n)
        else openSince st.read m := by
  obtain ⟨st', hr, hw', -, ho⟩ := transition_spec tsUtc source false (before n)
    ((moves_evaluate hs).settled hs) hw
  refine ⟨st', ?_, hw', ho⟩
  unfold refreshOne
  rw [Prog.bind_run_ok (Prog.modify_run _ _)]
  exact hr

omit hc hw in
lemma observe_points {s' : BreakerSet} (e : Event)
    (h : s.lossVelocity.points = s'.lossVelocity.points) :
    (s.observe now e).lossVelocity.points = (s'.observe now e).lossVelocity.points := by
  unfold observe
  split
  · split_ifs <;> exact h
  · split_ifs
    · simp only [LossVelocityBreaker.noteEquity, h]
    · exact h
  · exact h

omit hc hw in
/-- The windows are rebuilt from nothing, so the points do not depend on the memory. -/
lemma observeAll_points (es : List Event) (equityNow : ℤ) (s : BreakerSet) :
    (s.observeAll now es equityNow).lossVelocity.points = lossPoints now es equityNow := by
  have hfold : ∀ (es : List Event) (s s' : BreakerSet),
      s.lossVelocity.points = s'.lossVelocity.points →
      (es.foldl (observe now) s).lossVelocity.points =
        (es.foldl (observe now) s').lossVelocity.points := by
    intro es
    induction es with
    | nil => exact fun _ _ h => h
    | cons e es ih => exact fun s s' h => ih _ _ (observe_points e h)
  unfold lossPoints observeAll LossVelocityBreaker.noteEquity
  exact congrArg (fun p => LossVelocityBreaker.prune _ (p ++ [(now, equityNow)]))
    (hfold es _ _ rfl)

omit hc hw in
/-- The loss-velocity breaker closes silently exactly when it is half-open and calm. -/
lemma silentClose_evaluate_iff {b : Breaker} {l : LossVelocityBreaker}
    (hs : Settled (breakerConfig .lossVelocity) now b) (hl : l.toBreaker = b) :
    SilentClose (breakerConfig .lossVelocity) b (l.evaluate now).toBreaker ↔
      b.openedAt = none ∧ b.halfOpen = true ∧ LossVelocityBreaker.Calm now l.points := by
  constructor
  · rintro ⟨-, hn, hh, hb⟩
    refine ⟨hn, hh, ?_⟩
    by_contra hcalm
    apply hb
    unfold LossVelocityBreaker.evaluate LossVelocityBreaker.config
    simp only [hl, expire_eq hs, hh, or_true, if_true, if_neg hcalm]
    exact .inr hh
  · rintro ⟨hn, hh, hcalm⟩
    refine ⟨rfl, hn, hh, ?_⟩
    unfold LossVelocityBreaker.evaluate LossVelocityBreaker.config
    simp only [hl, expire_eq hs, hh, or_true, if_true, if_pos hcalm]
    simp [recordSuccess, breakerConfig, Blocking]

lemma refresh_kept (tsUtc equityNow : ℤ) :
    KeepsRecord (BreakerSet.refresh now tsUtc source equityNow) s st
      (¬ ((((s.byName .lossVelocity).expire (breakerConfig .lossVelocity) now).openedAt = none ∧
          ((s.byName .lossVelocity).expire (breakerConfig .lossVelocity) now).halfOpen = true) ∧
        LossVelocityBreaker.Calm now (lossPoints now st.read equityNow))) := by
  set b : BreakerName → Breaker := fun n => (s.byName n).expire (breakerConfig n) now with hb
  have hbs : ∀ n, Settled (breakerConfig n) now (b n) := fun n => expire_settled _ _ _
  have hbc : ∀ n, Coherent (breakerConfig n) (b n) := fun n => (hc n).expire now
  set before : BreakerName → BreakerState := s.state now with hbefore
  set s₁ := (s.expireAll now).observeAll now st.read equityNow with hs₁
  have hm₁ : ∀ n, Moves (breakerConfig n) now (b n) (s₁.byName n) := fun n => by
    have := observeAll_spec now st.read equityNow (s := s.expireAll now)
      (hbs .execErrors) n
    rwa [byName_expireAll] at this
  -- the three evaluations, each on its own breaker
  set s₂ := s₁.evaluate now .dataStale
  set s₃ := s₂.evaluate now .lossVelocity
  set s₄ := s₃.evaluate now .execErrors
  have e₂ : ∀ m ≠ .dataStale, s₂.byName m = s₁.byName m := fun m => evaluate_byName_ne
  have e₃ : ∀ m ≠ .lossVelocity, s₃.byName m = s₂.byName m := fun m => evaluate_byName_ne
  have h₁ : ∀ n, Settled (breakerConfig n) now (s₁.byName n) := fun n => (hm₁ n).settled (hbs n)
  have h₂ : ∀ n, Settled (breakerConfig n) now (s₂.byName n) := fun n => by
    by_cases hn : n = .dataStale
    · rw [hn]
      exact (moves_evaluate (h₁ _)).settled (h₁ _)
    · rw [e₂ n hn]
      exact h₁ n
  have h₃ : ∀ n, Settled (breakerConfig n) now (s₃.byName n) := fun n => by
    by_cases hn : n = .lossVelocity
    · rw [hn]
      exact (moves_evaluate (h₂ _)).settled (h₂ _)
    · rw [e₃ n hn]
      exact h₂ n
  obtain ⟨st₁, r₁, w₁, o₁⟩ := refreshOne_spec hw source before tsUtc (h₁ .dataStale)
  obtain ⟨st₂, r₂, w₂, o₂⟩ := refreshOne_spec w₁ source before tsUtc (h₂ .lossVelocity)
  obtain ⟨st₃, r₃, w₃, o₃⟩ := refreshOne_spec w₂ source before tsUtc (h₃ .execErrors)
  have hrun : BreakerSet.refresh now tsUtc source equityNow (s, st) = (.ok (), s₄, st₃) := by
    unfold BreakerSet.refresh
    rw [Prog.bind_run_ok (Prog.read_run _ _), Prog.bind_run_ok (Prog.modify_run _ _),
      Prog.bind_run_ok r₁, Prog.bind_run_ok r₂]
    exact r₃
  have hm : ∀ n, Moves (breakerConfig n) now (b n) (s₄.byName n) := by
    intro n
    refine (hm₁ n).trans ?_
    cases n with
    | dataStale => exact moves_evaluate (h₁ .dataStale)
    | lossVelocity =>
      rw [← e₂ .lossVelocity (by simp)]
      exact moves_evaluate (h₂ .lossVelocity)
    | execErrors => exact Moves.refl _ _ _
  have ho : ∀ n, openSince st₃.read n = recorded ((b n).state (breakerConfig n) now)
      ((s₄.byName n).state (breakerConfig n) now) tsUtc (openSince st.read n) := by
    intro n
    rw [hb, state_expire]
    cases n with
    | dataStale => rw [o₃, if_neg (by simp), o₂, if_neg (by simp), o₁, if_pos rfl]; rfl
    | lossVelocity => rw [o₃, if_neg (by simp), o₂, if_pos rfl, o₁, if_neg (by simp)]; rfl
    | execErrors => rw [o₃, if_pos rfl, o₂, if_neg (by simp), o₁, if_neg (by simp)]; rfl
  have hsilent : SilentClose (breakerConfig .lossVelocity) (b .lossVelocity)
      (s₄.byName .lossVelocity) ↔ (b .lossVelocity).openedAt = none ∧
        (b .lossVelocity).halfOpen = true ∧
        LossVelocityBreaker.Calm now (lossPoints now st.read equityNow) := by
    rw [← observeAll_points st.read equityNow (s.expireAll now)]
    refine silentClose_evaluate_iff (hbs .lossVelocity) (l := s₁.lossVelocity) ?_
    exact (observe_foldl_spec st.read (s := { s.expireAll now with
      execErrors := { (s.expireAll now).execErrors with rejects := [] }
      lossVelocity := { (s.expireAll now).lossVelocity with points := [] } })
        (hbs .execErrors)).2.1
  unfold KeepsRecord
  rw [hrun]
  refine ⟨⟨w₃, fun k => (hm k).coherent (hbc k)⟩, fun hr => ?_⟩
  rw [and_assoc, ← hsilent]
  have hiff : ∀ n, ((s₄.byName n).Blocking ↔ (openSince st₃.read n).isSome) ↔
      ¬ SilentClose (breakerConfig n) (b n) (s₄.byName n) := fun n => by
    rw [ho n]
    exact recorded_iff (threshold_ne n) (hbs n) (hbc n) (hm n)
      ((expire_blocking _ _ _).trans (hr n))
  refine ⟨fun h => (hiff _).mp (h .lossVelocity), fun h n => (hiff n).mpr ?_⟩
  cases n with
  | lossVelocity => exact h
  | dataStale => simp [SilentClose, breakerConfig]
  | execErrors => simp [SilentClose, breakerConfig]

/-! ### Synchronising -/

omit hc hw in
lemma byName_syncOne_ne (es : List Event) {m : BreakerName} (h : m ≠ n) :
    (syncOne now es s n).byName m = s.byName m := by
  unfold syncOne
  split
  · rfl
  · simp only
    split_ifs <;> simp [h]

omit hw in
lemma syncOne_coherent (es : List Event) (n m : BreakerName) :
    Coherent (breakerConfig m) ((syncOne now es s n).byName m) := by
  by_cases hm : m = n
  · subst hm
    unfold syncOne
    split
    · exact hc m
    · simp only
      split_ifs
      · simpa using (hc m).expire now
      · intro hn
        simp at hn
  · rw [byName_syncOne_ne es hm]
    exact hc m

omit hc hw in
/-- With memory and rows in agreement there is nothing to adopt. -/
lemma syncOne_blocking (now : ℤ) {es : List Event} (n : BreakerName)
    (h : (s.byName n).Blocking ↔ (openSince es n).isSome) (m : BreakerName) :
    ((syncOne now es s n).byName m).Blocking ↔ (s.byName m).Blocking := by
  by_cases hm : m = n
  · subst hm
    unfold syncOne
    rcases ho : openSince es m with - | t
    · rfl
    · have hb : ((s.byName m).expire (breakerConfig m) now).Blocking :=
        (expire_blocking _ _ _).mpr (h.mpr (by simp [ho]))
      simp only
      rw [if_pos (by rcases hb with hb | hb <;> simp [hb])]
      simp only [byName_update, if_true]
      exact expire_blocking _ _ _
  · rw [byName_syncOne_ne es hm]

omit hw in
lemma sync_coherent (es : List Event) (m : BreakerName) :
    Coherent (breakerConfig m) ((s.syncFromLedger now es).byName m) :=
  syncOne_coherent (fun k => syncOne_coherent (fun j => syncOne_coherent hc es _ j) es _ k) es _ m

omit hc hw in
lemma sync_blocking {es : List Event}
    (h : ∀ n, (s.byName n).Blocking ↔ (openSince es n).isSome) (m : BreakerName) :
    ((s.syncFromLedger now es).byName m).Blocking ↔ (s.byName m).Blocking := by
  have h₁ := syncOne_blocking now .dataStale (h .dataStale)
  have h₂ := syncOne_blocking now (s := syncOne now es s .dataStale) .lossVelocity
    ((h₁ _).trans (h _))
  have h₃ := syncOne_blocking now
    (s := syncOne now es (syncOne now es s .dataStale) .lossVelocity) .execErrors
    ((h₂ _).trans ((h₁ _).trans (h _)))
  exact (h₃ m).trans ((h₂ m).trans (h₁ m))

omit hc hw in
lemma admitProbe_life (now : ℤ) (n m : BreakerName) :
    SameLife ((s.byName m).expire (breakerConfig m) now) ((s.admitProbe now n).2.byName m) ∨
      (s.admitProbe now n).2.byName m = s.byName m := by
  unfold BreakerSet.admitProbe
  simp only [byName_update]
  split_ifs with h
  · rw [← h]
    exact .inl (admitProbe_sameLife _ _ _)
  · exact .inr rfl

/-! ### Rows of other writers -/

omit hc hw in
lemma append_foreign (hw : Writable st) {row : Row} (hf : Foreign row) :
    Writable (LedgerStore.append row st).2 ∧
      ∀ n, openSince (LedgerStore.append row st).2.read n = openSince st.read n := by
  obtain ⟨hp₁, hp₂, hk₁, hk₂⟩ := hf
  rcases ha : LedgerStore.append row st with ⟨x | e, st'⟩
  · obtain ⟨rfl, -⟩ := LedgerStore.append_error_iff.mp ha
    exact ⟨hw, fun _ => rfl⟩
  · obtain ⟨-, -, -, rfl⟩ := LedgerStore.append_ok_iff.mp ha
    refine ⟨hw.commit (fun m k h => absurd h (hk₁ m k)) (fun m k h => absurd h (hk₂ m k)), ?_⟩
    intro n
    rw [openSince_commit]
    have ht : isTrip n { row with seq := st.count + 1 } = false := by
      unfold isTrip
      split
      · rename_i p h
        exact absurd h (hp₁ p)
      · rfl
    have hr : isReset n { row with seq := st.count + 1 } = false := by
      unfold isReset
      split
      · rename_i p h
        exact absurd h (hp₂ p)
      · rfl
    simp [seeRow, ht, hr]

omit hc hw

/-! ### Whole runs -/

lemma kept_start (now : ℤ) : (start now).Kept := by
  refine ⟨⟨rfl, ?_, ?_⟩, fun n => ?_⟩
  · simp [start, LedgerStore.read]
  · simp [start, LedgerStore.read]
  · cases n <;> simp [start, byName, Coherent]

lemma agrees_start (now : ℤ) : (start now).Agrees := by
  rw [agrees_iff]
  intro n
  cases n <;> simp [start, byName, Blocking, openSince, LedgerStore.read]

/-- One action keeps the invariants, and keeps the agreement exactly when it does not close the
loss-velocity breaker from half-open. -/
lemma step_kept (source : EventSource) (r : BreakerRun) (a : BreakerAction) (h : r.Kept) :
    (r.step source a).Kept ∧ (r.Agrees → ((r.step source a).Agrees ↔ r.LossNotClosed a)) := by
  obtain ⟨hw, hc⟩ := h
  simp only [agrees_iff]
  cases a with
  | advance dt => exact ⟨⟨hw, hc⟩, fun h => iff_of_true h trivial⟩
  | tick ts => exact tick_kept hc hw ts r.now
  | miss => exact miss_kept hc hw r.now
  | refresh equityNow => exact refresh_kept hc hw r.now equityNow
  | look =>
    refine ⟨⟨hw, fun n => ?_⟩, fun h => iff_of_true (fun n => ?_) trivial⟩
    · simpa [step] using (hc n).expire r.now
    · simpa [step, expire_blocking] using h n
  | sync =>
    refine ⟨⟨hw, sync_coherent hc _⟩, fun h => iff_of_true (fun n => ?_) trivial⟩
    exact (sync_blocking h n).trans (h n)
  | probe n =>
    refine ⟨⟨hw, fun m => ?_⟩, fun h => iff_of_true (fun m => ?_) trivial⟩
    · rcases admitProbe_life (s := r.set) r.now n m with ⟨ho, hh, hf⟩ | he
      · exact Moves.coherent ((hc m).expire r.now) (Moves.same r.now ⟨ho, hh, hf⟩)
      · simpa [step, he] using hc m
    · rcases admitProbe_life (s := r.set) r.now n m with ⟨ho, hh, -⟩ | he
      · have : ((r.step source (.probe n)).set.byName m).Blocking ↔
            ((r.set.byName m).expire (breakerConfig m) r.now).Blocking := by
          simp [step, Blocking, ho, hh]
        exact this.trans ((expire_blocking _ _ _).trans (h m))
      · simpa [step, he] using h m
  | outcome n ok =>
    refine (outcome_kept hc hw n ok r.now).congr ?_
    simp [LossNotClosed, LossHalfOpen, and_assoc]
  | observed row hf =>
    obtain ⟨hw', ho⟩ := append_foreign hw hf
    refine ⟨⟨hw', hc⟩, fun h => iff_of_true (fun n => ?_) trivial⟩
    show (r.set.byName n).Blocking ↔ _
    rw [h n]
    simp [step, ho n]

/-- The newest row about a breaker is a reset. -/
def LastIsReset (es : List Event) (n : BreakerName) : Prop :=
  ∃ front e back, es = front ++ e :: back ∧ isReset n e = true ∧
    ∀ x ∈ back, isTrip n x = false ∧ isReset n x = false

lemma lastIsReset_of_fold {t : ℤ} (fs : List Event) (h : fs.foldl (seeRow n) (some t) = none) :
    LastIsReset fs n := by
  induction fs using List.reverseRecOn with
  | nil => simp at h
  | append_singleton fs e ih =>
    rw [List.foldl_append, List.foldl_cons, List.foldl_nil, seeRow] at h
    split_ifs at h with ht hr
    · exact ⟨fs, e, [], rfl, hr, by simp⟩
    · obtain ⟨front, x, back, rfl, hx, hb⟩ := ih h
      refine ⟨front, x, back ++ [e], by simp, hx, fun y hy => ?_⟩
      rcases List.mem_append.mp hy with hy | hy
      · exact hb y hy
      · obtain rfl := List.mem_singleton.mp hy
        simp [ht, hr]

/-- A breaker whose latest row was a trip and is one no longer was reset last. -/
lemma lastIsReset {es fs : List Event} (hp : es <+: fs) (ho : (openSince es n).isSome)
    (hn : openSince fs n = none) : LastIsReset fs n := by
  obtain ⟨gs, rfl⟩ := hp
  obtain ⟨t, ht⟩ := Option.isSome_iff_exists.mp ho
  rw [openSince_append, ht] at hn
  obtain ⟨front, e, back, rfl, he, hb⟩ := lastIsReset_of_fold gs hn
  exact ⟨es ++ front, e, back, by simp, he, hb⟩

/-- What holds of a run's last state: memory and rows name the same breakers, aligning the
memory with the rows changes none of them, and a probe that has just closed its breaker left a
reset as the breaker's newest row. -/
structure Faithful (source : EventSource) (now₀ : ℤ) (as : List BreakerAction) : Prop where
  agrees : (Runs.after (step source) (start now₀) as).Agrees
  syncs :
    ∀ n, (((Runs.after (step source) (start now₀) as).step source .sync).set.byName n).Blocking
    ↔ ((Runs.after (step source) (start now₀) as).set.byName n).Blocking
  resets : ∀ bs n, as = bs ++ [.outcome n true] →
    ((Runs.after (step source) (start now₀) bs).set.byName n).Blocking →
    ¬ ((Runs.after (step source) (start now₀) as).set.byName n).Blocking →
    LastIsReset (Runs.after (step source) (start now₀) as).store.read n

/-- **Breaker memory and the ledger.** In a run that starts on an empty ledger, memory and rows
agree in every state exactly when no step closes the loss-velocity breaker from half-open. -/
theorem faithful_iff (source : EventSource) (now₀ : ℤ) (as : List BreakerAction) :
    (∀ bs, bs <+: as → Faithful source now₀ bs) ↔
      Runs.Along (step source) LossNotClosed (start now₀) as := by
  rw [← Runs.always_iff_along (fun r a h => (step_kept source r a h).1)
    (fun r a h => (step_kept source r a h).2) (kept_start now₀) (agrees_start now₀) as]
  refine ⟨fun h bs hbs => (h bs hbs).agrees, fun h bs hbs => ⟨h bs hbs, fun n => ?_, ?_⟩⟩
  · exact sync_blocking ((agrees_iff _).mp (h bs hbs)) n
  · rintro cs n rfl hopen hclosed
    have hcs : cs <+: as := (List.prefix_append cs _).trans hbs
    have h₁ := (agrees_iff _).mp (h cs hcs) n
    have h₂ := (agrees_iff _).mp (h _ hbs) n
    rw [Runs.after_snoc] at h₂ hclosed ⊢
    set r := Runs.after (step source) (start now₀) cs
    exact lastIsReset (resolveProbe_grown r.now n true r.now source (r.set, r.store)).read_extends
      (h₁.mp hopen)
      (by simpa using mt h₂.mpr hclosed)

/-- A three percent drop trips the breaker; after its cooldown a probe succeeds. -/
def closedByProbe : List BreakerAction :=
  [.observed
      { ts := 0
        source := .paper
        key := .other 0
        payload := .markToMarket
          { tsSource := 0
            cashLamports := 1000
            equityLamports := 1000
            unrealizedLamports := 0
            prices := [] } }
      (by simp [Foreign]),
    .advance 1000000, .refresh 970, .advance 1800000000, .look, .probe .lossVelocity,
    .outcome .lossVelocity true]

theorem closedByProbe_disagrees :
    ¬ ∀ as, Faithful .paper 0 as := by
  intro h
  have hn := (h closedByProbe).agrees .lossVelocity
  revert hn
  decide +kernel

end BreakerRun

end PumpGrok
