import PumpGrok.Risk.BreakerRuns

/-!
A refresh of the breakers, and the same refresh once more at the same instant. What the second one
does is read off the fixed points of the three evaluations; only the loss-velocity breaker has a
trip and a reset that can both be due.
-/

namespace PumpGrok

open Breaker BreakerSet

namespace LossVelocityBreaker

/-- The long window has dropped. -/
def Dropped (now : ℤ) (points : List (ℤ × ℤ)) : Prop :=
  ∃ loss ∈ windowLoss now window points, lossFraction ≤ loss

instance (now : ℤ) (points : List (ℤ × ℤ)) : Decidable (Dropped now points) :=
  match h : windowLoss now window points with
  | none => .isFalse (by simp [Dropped, h])
  | some loss => decidable_of_iff (lossFraction ≤ loss) (by simp [Dropped, h])

variable {now : ℤ} {b : LossVelocityBreaker}

lemma eq_of {b' : LossVelocityBreaker} (h : b.toBreaker = b'.toBreaker)
    (hp : b.points = b'.points) : b = b' := by
  cases b
  cases b'
  simp_all

lemma evaluate_points (now : ℤ) (b : LossVelocityBreaker) : (b.evaluate now).points = b.points := by
  unfold evaluate
  dsimp only
  split_ifs
  · rfl
  · rfl
  · split
    · rfl
    · split_ifs <;> rfl

lemma evaluate_blocking (hs : Settled (breakerConfig .lossVelocity) now b.toBreaker)
    (hb : b.Blocking) : b.evaluate now =
      if Calm now b.points then
        { b with toBreaker := b.toBreaker.recordSuccess config } else b := by
  unfold evaluate config
  dsimp only
  rw [expire_eq hs, if_pos (show b.openedAt.isSome = true ∨ b.halfOpen = true from hb)]

lemma evaluate_closed (hs : Settled (breakerConfig .lossVelocity) now b.toBreaker)
    (hb : ¬ b.Blocking) : b.evaluate now =
      if Dropped now b.points then { b with toBreaker := b.toBreaker.trip config now } else b := by
  unfold evaluate config
  dsimp only
  rw [expire_eq hs, if_neg (show ¬ (b.openedAt.isSome = true ∨ b.halfOpen = true) from hb)]
  rcases hl : windowLoss now window b.points with - | loss
  · simp [Dropped, hl]
  · simp [Dropped, hl]

lemma evaluate_settled (hs : Settled (breakerConfig .lossVelocity) now b.toBreaker) :
    Settled (breakerConfig .lossVelocity) now (b.evaluate now).toBreaker :=
  (moves_evaluate_lossVelocity hs).settled hs

lemma recordSuccess_closed : ¬ (b.toBreaker.recordSuccess config).Blocking := by
  simp [Breaker.recordSuccess, config, breakerConfig, Breaker.Blocking]

/-- An evaluation after another changes nothing, unless a trip and a reset are both due. -/
lemma evaluate_again (hs : Settled (breakerConfig .lossVelocity) now b.toBreaker)
    (hn : ¬ (Dropped now b.points ∧ Calm now b.points)) :
    (b.evaluate now).evaluate now = b.evaluate now := by
  have hs' := evaluate_settled hs
  have hp := evaluate_points now b
  by_cases hb : b.Blocking
  · have h₁ := evaluate_blocking hs hb
    by_cases hc : Calm now b.points
    · rw [if_pos hc] at h₁
      rw [evaluate_closed hs' (by rw [h₁]; exact recordSuccess_closed), hp,
        if_neg fun hd => hn ⟨hd, hc⟩]
    · rw [if_neg hc] at h₁
      rw [h₁, h₁]
  · have h₁ := evaluate_closed hs hb
    by_cases hd : Dropped now b.points
    · rw [if_pos hd] at h₁
      rw [evaluate_blocking hs' (by rw [h₁]; exact .inl rfl), hp, if_neg fun hc => hn ⟨hd, hc⟩]
    · rw [if_neg hd] at h₁
      rw [h₁, h₁]

/-- With both due, an evaluation after another opens or closes the breaker. -/
lemma evaluate_swings (hs : Settled (breakerConfig .lossVelocity) now b.toBreaker)
    (hd : Dropped now b.points) (hc : Calm now b.points) :
    ((b.evaluate now).evaluate now).openedAt.isSome = !(b.evaluate now).openedAt.isSome := by
  have hs' := evaluate_settled hs
  have hp := evaluate_points now b
  by_cases hb : b.Blocking
  · have h₁ := evaluate_blocking hs hb
    rw [if_pos hc] at h₁
    rw [evaluate_closed hs' (by rw [h₁]; exact recordSuccess_closed), hp, if_pos hd, h₁]
    simp [Breaker.trip, Breaker.recordSuccess, config, breakerConfig]
  · have h₁ := evaluate_closed hs hb
    rw [if_pos hd] at h₁
    rw [evaluate_blocking hs' (by rw [h₁]; exact .inl rfl), hp, if_pos hc, h₁]
    simp [Breaker.trip, Breaker.recordSuccess, config, breakerConfig]

end LossVelocityBreaker

namespace DataStaleBreaker

/-- A second evaluation finds the breaker open, half-open or fresh. -/
lemma evaluate_again {now : ℤ} {b : DataStaleBreaker}
    (hs : Settled (breakerConfig .dataStale) now b.toBreaker) :
    (b.evaluate now).evaluate now = b.evaluate now := by
  have hs' : Settled (breakerConfig .dataStale) now (b.evaluate now).toBreaker :=
    (moves_evaluate_dataStale hs).settled hs
  have hcases : b.evaluate now = b ∨ (b.evaluate now).openedAt.isSome = true := by
    unfold evaluate config
    dsimp only
    rw [expire_eq hs]
    split_ifs
    · exact .inl rfl
    · exact .inr rfl
    · exact .inl rfl
  rcases hcases with h | h
  · rw [h, h]
  · generalize b.evaluate now = b' at hs' h
    unfold evaluate config
    dsimp only
    rw [expire_eq hs', if_pos (.inl h)]

end DataStaleBreaker

namespace ExecErrorsBreaker

variable {now : ℤ} {b b' : ExecErrorsBreaker}

lemma eq_of (h : b.toBreaker = b'.toBreaker) (hr : b.rejects = b'.rejects) : b = b' := by
  cases b
  cases b'
  simp_all

/-- Counting a rejection leaves the breaker's life or opens it, and open it stays. -/
lemma noteReject_cases (hs : Settled (breakerConfig .execErrors) now b.toBreaker) (ts : ℤ)
    (reason : Reason) :
    (b.noteReject now ts reason).toBreaker = b.toBreaker ∨
      b.openedAt = none ∧ (b.noteReject now ts reason).openedAt.isSome = true := by
  unfold noteReject config
  dsimp only
  split_ifs with hr hm ho
  · exact .inl rfl
  · exact .inl (expire_eq hs)
  · rw [expire_eq hs] at ho ⊢
    exact .inr ⟨by simpa using ho, rfl⟩
  · exact .inl rfl

lemma noteReject_rejects (h : b.rejects = b'.rejects) (ts : ℤ) (reason : Reason) :
    (b.noteReject now ts reason).rejects = (b'.noteReject now ts reason).rejects := by
  unfold noteReject
  dsimp only
  rw [h]
  split_ifs <;> first | exact h | rfl

/-- A row as this breaker sees it. -/
def observe (now : ℤ) (b : ExecErrorsBreaker) (e : Event) : ExecErrorsBreaker :=
  match e.payload with
  | .orderRejected p => if now - e.ts ≤ window then b.noteReject now e.ts p.reason else b
  | _ => b

lemma observe_moves (e : Event) (hs : Settled (breakerConfig .execErrors) now b.toBreaker) :
    Settled (breakerConfig .execErrors) now (b.observe now e).toBreaker ∧
      ((b.observe now e).toBreaker = b.toBreaker ∨
        b.openedAt = none ∧ (b.observe now e).openedAt.isSome = true) := by
  unfold observe
  split
  · split_ifs with ht
    · exact ⟨(moves_noteReject _ hs ht).settled hs, noteReject_cases hs _ _⟩
    · exact ⟨hs, .inl rfl⟩
  · exact ⟨hs, .inl rfl⟩

/-- Feeding rows leaves the breaker's life, or opens it when it was not open. -/
lemma feed_cases (es : List Event) (hs : Settled (breakerConfig .execErrors) now b.toBreaker) :
    (es.foldl (observe now) b).toBreaker = b.toBreaker ∨
      b.openedAt = none ∧ (es.foldl (observe now) b).openedAt.isSome = true := by
  induction es generalizing b with
  | nil => exact .inl rfl
  | cons e es ih =>
    obtain ⟨hs', hone⟩ := observe_moves e hs
    rw [List.foldl_cons]
    rcases hone with h | ⟨hn, ho⟩
    · rcases ih hs' with h' | ⟨hn', ho'⟩
      · exact .inl (h'.trans h)
      · rw [h] at hn'
        exact .inr ⟨hn', ho'⟩
    · rcases ih hs' with h' | ⟨hn', -⟩
      · refine .inr ⟨hn, ?_⟩
        rw [h']
        exact ho
      · simp [hn'] at ho

/-- The counted rejections do not depend on the breaker's life. -/
lemma feed_rejects (es : List Event) (h : b.rejects = b'.rejects) :
    (es.foldl (observe now) b).rejects = (es.foldl (observe now) b').rejects := by
  induction es generalizing b b' with
  | nil => exact h
  | cons e es ih =>
    refine ih ?_
    unfold observe
    split
    · split_ifs
      · exact noteReject_rejects h _ _
      · exact h
    · exact h

/-- The same rows fed once more: an open breaker stays as it is, and one that is not open was not
opened by them. -/
lemma feed_again (es : List Event) (hs : Settled (breakerConfig .execErrors) now b.toBreaker) :
    es.foldl (observe now) { es.foldl (observe now) b with rejects := b.rejects } =
      es.foldl (observe now) b := by
  have hs' : Settled (breakerConfig .execErrors) now (es.foldl (observe now) b).toBreaker := by
    induction es generalizing b with
    | nil => exact hs
    | cons e es ih => exact ih (observe_moves e hs).1
  rcases feed_cases es hs with h | ⟨-, ho⟩
  · have hback : { es.foldl (observe now) b with rejects := b.rejects } = b := eq_of h rfl
    rw [hback]
  · refine eq_of ?_ (feed_rejects es rfl)
    rcases feed_cases es (b := { es.foldl (observe now) b with rejects := b.rejects }) hs' with
      h | ⟨hn, -⟩
    · exact h
    · simp [show (es.foldl (observe now) b).openedAt = none from hn] at ho

end ExecErrorsBreaker

namespace BreakerSet

variable {now : ℤ} {s : BreakerSet} {n : BreakerName}

lemma eq_of {s' : BreakerSet} (h₁ : s.dataStale = s'.dataStale)
    (h₂ : s.lossVelocity = s'.lossVelocity) (h₃ : s.execErrors = s'.execErrors) : s = s' := by
  cases s
  cases s'
  simp_all

lemma expireAll_eq (hs : ∀ n, Settled (breakerConfig n) now (s.byName n)) :
    s.expireAll now = s := by
  have h₁ : s.dataStale.toBreaker.expire (breakerConfig .dataStale) now = s.dataStale.toBreaker :=
    expire_eq (hs .dataStale)
  have h₂ : s.lossVelocity.toBreaker.expire (breakerConfig .lossVelocity) now =
      s.lossVelocity.toBreaker := expire_eq (hs .lossVelocity)
  have h₃ : s.execErrors.toBreaker.expire (breakerConfig .execErrors) now =
      s.execErrors.toBreaker := expire_eq (hs .execErrors)
  unfold expireAll
  rw [h₁, h₂, h₃]

/-- Rows of the breakers are not observed. -/
def isBreaker (e : Event) : Bool := isTrip .dataStale e || isTrip .lossVelocity e ||
  isTrip .execErrors e || isReset .dataStale e || isReset .lossVelocity e || isReset .execErrors e

lemma observe_breaker {e : Event} (he : isBreaker e = true) : s.observe now e = s := by
  rcases e with ⟨⟨ts, source, key, payload⟩, seq⟩
  cases payload <;> first | rfl | simp [isBreaker, isTrip, isReset] at he

lemma observe_breakers {es : List Event} (he : ∀ e ∈ es, isBreaker e = true) :
    es.foldl (observe now) s = s := by
  induction es with
  | nil => rfl
  | cons e es ih =>
    rw [List.foldl_cons, observe_breaker (he e List.mem_cons_self)]
    exact ih fun e' he' => he e' (List.mem_cons_of_mem _ he')

lemma observe_execErrors (es : List Event) :
    (es.foldl (observe now) s).execErrors =
      es.foldl (ExecErrorsBreaker.observe now) s.execErrors := by
  induction es generalizing s with
  | nil => rfl
  | cons e es ih =>
    have hone : (s.observe now e).execErrors = s.execErrors.observe now e := by
      rcases e with ⟨⟨ts, source, key, payload⟩, seq⟩
      cases payload <;> first | rfl | skip
      all_goals
        simp only [observe, ExecErrorsBreaker.observe]
        split_ifs <;> rfl
    rw [List.foldl_cons, List.foldl_cons, ih, hone]

/-- The set after a refresh. -/
def refreshed (now : ℤ) (events : List Event) (equityNow : ℤ) (s : BreakerSet) : BreakerSet :=
  (((s.expireAll now).observeAll now events equityNow).evaluate now .dataStale).evaluate now
    .lossVelocity

lemma expireAll_settled (now : ℤ) (s : BreakerSet) (n : BreakerName) :
    Settled (breakerConfig n) now ((s.expireAll now).byName n) := by
  rw [byName_expireAll]
  exact expire_settled _ _ _

lemma observed_settled (now : ℤ) (events : List Event) (equityNow : ℤ) (s : BreakerSet)
    (n : BreakerName) :
    Settled (breakerConfig n) now
      (((s.expireAll now).observeAll now events equityNow).byName n) :=
  (observeAll_spec now events equityNow (expireAll_settled now s .execErrors) n).settled
    (expireAll_settled now s n)

lemma refreshed_settled (now : ℤ) (events : List Event) (equityNow : ℤ) (s : BreakerSet)
    (n : BreakerName) :
    Settled (breakerConfig n) now ((s.refreshed now events equityNow).byName n) := by
  have h := observed_settled now events equityNow s
  cases n with
  | dataStale => exact (moves_evaluate_dataStale (h .dataStale)).settled (h .dataStale)
  | lossVelocity => exact LossVelocityBreaker.evaluate_settled (h .lossVelocity)
  | execErrors => exact h .execErrors

/-- The windows fed once more, from the same rows and rows of the breakers. -/
lemma observeAll_again (events more : List Event) (hm : ∀ e ∈ more, isBreaker e = true)
    (equityNow : ℤ) (s : BreakerSet) :
    ((s.refreshed now events equityNow).expireAll now).observeAll now (events ++ more) equityNow =
      s.refreshed now events equityNow := by
  have hset := refreshed_settled now events equityNow s
  rw [expireAll_eq hset]
  set s₁ := s.refreshed now events equityNow with hs₁
  set cleared : BreakerSet := { s₁ with
    execErrors := { s₁.execErrors with rejects := [] }
    lossVelocity := { s₁.lossVelocity with points := [] } } with hcleared
  set start : BreakerSet := { s.expireAll now with
    execErrors := { (s.expireAll now).execErrors with rejects := [] }
    lossVelocity := { (s.expireAll now).lossVelocity with points := [] } } with hstart
  obtain ⟨hstale, hloss, -⟩ := observe_foldl_spec events (s := cleared) (hset .execErrors)
  have hfed :
      s₁.observeAll now (events ++ more) equityNow = s₁.observeAll now events equityNow := by
    unfold observeAll
    dsimp only
    rw [List.foldl_append, observe_breakers hm]
  have hexec : (events.foldl (observe now) cleared).execErrors = s₁.execErrors := by
    have hfirst : s₁.execErrors = events.foldl (ExecErrorsBreaker.observe now) start.execErrors :=
      observe_execErrors (s := start) events
    rw [observe_execErrors, hcleared]
    dsimp only
    rw [hfirst]
    exact ExecErrorsBreaker.feed_again events (expireAll_settled now s .execErrors)
  have hpoints : (s₁.observeAll now events equityNow).lossVelocity.points =
      s₁.lossVelocity.points := by
    rw [BreakerRun.observeAll_points, ← BreakerRun.observeAll_points events equityNow
      (s.expireAll now)]
    exact (LossVelocityBreaker.evaluate_points now _).symm
  rw [hfed]
  refine eq_of hstale (LossVelocityBreaker.eq_of hloss hpoints) hexec

/-- **A refresh after another** at the same instant finds the windows as they were; it changes
nothing, unless a trip and a reset of the loss-velocity breaker are both due. -/
lemma refreshed_again (events more : List Event) (hm : ∀ e ∈ more, isBreaker e = true)
    (equityNow : ℤ) (s : BreakerSet)
    (hn : ¬ (LossVelocityBreaker.Dropped now (BreakerRun.lossPoints now events equityNow) ∧
      LossVelocityBreaker.Calm now (BreakerRun.lossPoints now events equityNow))) :
    (s.refreshed now events equityNow).refreshed now (events ++ more) equityNow =
      s.refreshed now events equityNow := by
  have hobs := observed_settled now events equityNow s
  have hpoints : ((s.expireAll now).observeAll now events equityNow).lossVelocity.points =
      BreakerRun.lossPoints now events equityNow := BreakerRun.observeAll_points ..
  conv_lhs => rw [refreshed, observeAll_again events more hm]
  refine eq_of (DataStaleBreaker.evaluate_again (hobs .dataStale)) ?_ rfl
  refine LossVelocityBreaker.evaluate_again (hobs .lossVelocity) ?_
  rw [show (((s.expireAll now).observeAll now events equityNow).evaluate now
    .dataStale).lossVelocity.points = _ from hpoints]
  exact hn

lemma refreshed_stale (events more : List Event) (hm : ∀ e ∈ more, isBreaker e = true)
    (equityNow : ℤ) (s : BreakerSet) :
    ((s.refreshed now events equityNow).refreshed now (events ++ more) equityNow).dataStale =
      (s.refreshed now events equityNow).dataStale := by
  have hobs := observed_settled now events equityNow s
  conv_lhs => rw [refreshed, observeAll_again events more hm]
  exact DataStaleBreaker.evaluate_again (hobs .dataStale)

/-- With both due, it opens the breaker the first one closed, or closes the one it opened. -/
lemma refreshed_swings (events more : List Event) (hm : ∀ e ∈ more, isBreaker e = true)
    (equityNow : ℤ) (s : BreakerSet)
    (hd : LossVelocityBreaker.Dropped now (BreakerRun.lossPoints now events equityNow))
    (hc : LossVelocityBreaker.Calm now (BreakerRun.lossPoints now events equityNow)) :
    ((s.refreshed now events equityNow).refreshed now (events ++ more)
        equityNow).lossVelocity.openedAt.isSome =
      !(s.refreshed now events equityNow).lossVelocity.openedAt.isSome := by
  have hobs := observed_settled now events equityNow s
  have hpoints : ((s.expireAll now).observeAll now events equityNow).lossVelocity.points =
      BreakerRun.lossPoints now events equityNow := BreakerRun.observeAll_points ..
  conv_lhs => rw [refreshed, observeAll_again events more hm]
  rw [← hpoints] at hd hc
  exact LossVelocityBreaker.evaluate_swings (hobs .lossVelocity) hd hc

/-! ### The rows of a refresh -/

variable {st : LedgerStore} {ts equityNow : ℤ} {source : EventSource} {before : BreakerState}

lemma transition_set (hs : Settled (breakerConfig n) now (s.byName n)) (ts : ℤ)
    (source : EventSource) (po : Bool) (before : BreakerState) (st : LedgerStore) :
    (transition now n before ts source po (s, st)).2.1 = s := by
  have hread : readState now n (s, st) = (.ok (s.state now n), s, st) := by
    unfold readState
    rw [expire_eq hs, update_byName]
  unfold transition
  rw [Prog.bind_run_ok hread]
  split_ifs <;> rfl

lemma transition_same (hs : Settled (breakerConfig n) now (s.byName n)) (ts : ℤ)
    (source : EventSource) (po : Bool) (st : LedgerStore) :
    transition now n (s.state now n) ts source po (s, st) = (.ok (), s, st) := by
  have hread : readState now n (s, st) = (.ok (s.state now n), s, st) := by
    unfold readState
    rw [expire_eq hs, update_byName]
  unfold transition
  rw [Prog.bind_run_ok hread, if_pos rfl]
  rfl

/-- What a store grows by with the breakers' rows. -/
lemma written_rows {st st' : LedgerStore} (h : LedgerStore.Grows BreakerRow st st') :
    ∃ rows, st'.read = st.read ++ rows ∧ ∀ e ∈ rows, isBreaker e = true := by
  induction h with
  | refl => exact ⟨[], by simp, by simp⟩
  | marked b _ ih => exact ih
  | @commit st' rows _ _ ha ih =>
    obtain ⟨front, hfront, hbreaker⟩ := ih
    refine ⟨front ++ LedgerStore.stamp (st'.count + 1) rows, ?_, fun e he => ?_⟩
    · rw [LedgerStore.read_commit, hfront, List.append_assoc]
    · rcases List.mem_append.mp he with he | he
      · exact hbreaker e he
      · cases ha with
        | trip n ts source =>
          obtain rfl : e = { tripRow n ts source st' with seq := st'.count + 1 } := by
            simpa [LedgerStore.stamp] using he
          cases n <;> rfl
        | reset n ts source probeOk =>
          obtain rfl : e = { resetRow n ts source probeOk st' with seq := st'.count + 1 } := by
            simpa [LedgerStore.stamp] using he
          cases n <;> rfl

lemma mem_openBreakers (hs : ∀ n, Settled (breakerConfig n) now (s.byName n)) :
    n ∈ s.openBreakers now ↔ (s.byName n).openedAt.isSome = true := by
  unfold openBreakers
  rw [List.mem_filter, expireAll_eq hs]
  cases n <;> simp [breakerNames]

/-- A refresh that can write its rows. -/
lemma refresh_set (hw : Writable st) (ts : ℤ) (source : EventSource) (equityNow : ℤ)
    (s : BreakerSet) :
    (refresh now ts source equityNow (s, st)).2.1 = s.refreshed now st.read equityNow := by
  have hset := observed_settled now st.read equityNow s
  set s₁ := (s.expireAll now).observeAll now st.read equityNow with hs₁
  obtain ⟨st₁, r₁, w₁, -⟩ := BreakerRun.refreshOne_spec hw source (s.state now) ts (hset .dataStale)
  obtain ⟨st₂, r₂, w₂, -⟩ := BreakerRun.refreshOne_spec (s := s₁.evaluate now .dataStale) w₁ source
    (s.state now) ts (hset .lossVelocity)
  obtain ⟨st₃, r₃, -, -⟩ := BreakerRun.refreshOne_spec
    (s := (s₁.evaluate now .dataStale).evaluate now .lossVelocity) w₂ source
    (s.state now) ts (hset .execErrors)
  unfold refresh
  rw [Prog.bind_run_ok (Prog.read_run _ _), Prog.bind_run_ok (Prog.modify_run _ _),
    Prog.bind_run_ok r₁, Prog.bind_run_ok r₂, r₃]
  rfl

lemma refreshOne_set (ts : ℤ) (source : EventSource) (before : BreakerName → BreakerState)
    (st : LedgerStore) (hs : Settled (breakerConfig n) now ((s.evaluate now n).byName n)) :
    (refreshOne now ts source before n (s, st)).2.1 = s.evaluate now n := by
  unfold refreshOne
  rw [Prog.bind_run_ok (Prog.modify_run _ _)]
  exact transition_set hs ts source false _ st

lemma refreshOne_same (ts : ℤ) (source : EventSource) (before : BreakerName → BreakerState)
    (st : LedgerStore) (hs : Settled (breakerConfig n) now ((s.evaluate now n).byName n))
    (hb : before n = (s.evaluate now n).state now n) :
    refreshOne now ts source before n (s, st) = (.ok (), s.evaluate now n, st) := by
  unfold refreshOne
  rw [Prog.bind_run_ok (Prog.modify_run _ _), hb]
  exact transition_same hs ts source false st

/-- A refresh that leaves the data-stale breaker as it was, whether or not rows can be written. -/
lemma refresh_run_of_fresh
    (hstale : (s.refreshed now st.read equityNow).dataStale = s.dataStale) (ts : ℤ)
    (source : EventSource) :
    (refresh now ts source equityNow (s, st)).2.1 = s.refreshed now st.read equityNow ∧
      (s.refreshed now st.read equityNow = s →
        refresh now ts source equityNow (s, st) = (.ok (), s, st)) := by
  have hset := refreshed_settled now st.read equityNow s
  have hset₁ := observed_settled now st.read equityNow s
  set s₁ := (s.expireAll now).observeAll now st.read equityNow with hs₁
  set s₂ := s₁.evaluate now .dataStale with hs₂
  set s₃ := s₂.evaluate now .lossVelocity with hs₃
  have hset₂ : Settled (breakerConfig .dataStale) now (s₂.byName .dataStale) := hset .dataStale
  have hset₃ : Settled (breakerConfig .lossVelocity) now (s₃.byName .lossVelocity) :=
    hset .lossVelocity
  have r₁ : refreshOne now ts source (s.state now) .dataStale (s₁, st) = (.ok (), s₂, st) := by
    refine refreshOne_same ts source _ st hset₂ ?_
    show s.dataStale.toBreaker.state _ now = s₂.dataStale.toBreaker.state _ now
    rw [← hstale]
    rfl
  have r₃ : ∀ st', (refreshOne now ts source (s.state now) .execErrors (s₃, st')).2.1 = s₃ :=
    fun st' => refreshOne_set (s := s₃) ts source _ st' (hset .execErrors)
  unfold refresh
  rw [Prog.bind_run_ok (Prog.read_run _ _), Prog.bind_run_ok (Prog.modify_run _ _),
    Prog.bind_run_ok r₁]
  constructor
  · have hset' := refreshOne_set (s := s₂) ts source (s.state now) st hset₃
    rcases hr : refreshOne now ts source (s.state now) .lossVelocity (s₂, st) with ⟨x | u, s', st'⟩
    · rw [Prog.bind_run_error hr]
      rw [hr] at hset'
      exact hset'
    · rw [Prog.bind_run_ok hr]
      rw [hr] at hset'
      obtain rfl : s' = s₃ := hset'
      exact r₃ st'
  · intro hsame
    replace hsame : s₃ = s := hsame
    have r₂ : refreshOne now ts source (s.state now) .lossVelocity (s₂, st) = (.ok (), s₃, st) :=
      refreshOne_same (s := s₂) ts source _ st hset₃ (by
        show s.state now .lossVelocity = s₃.state now .lossVelocity
        rw [hsame])
    have r₃ : refreshOne now ts source (s.state now) .execErrors (s₃, st) = (.ok (), s₃, st) :=
      refreshOne_same (s := s₃) ts source _ st (hset .execErrors) (by
        show s.state now .execErrors = s₃.state now .execErrors
        rw [hsame])
    rw [Prog.bind_run_ok r₂, ← hsame]
    rw [← hsame] at r₃
    exact r₃

end BreakerSet

namespace BreakerRun

/-- A mark, as the rows of other writers. -/
def sampleMark (ts equity : ℤ) : Row where
  ts := ts
  source := .paper
  key := .other ts.toNat
  payload := .markToMarket
    { tsSource := ts, cashLamports := equity, equityLamports := equity, unrealizedLamports := 0,
      prices := [] }

/-- The loss-velocity breaker is due to trip and, were it open, to reset: the fifteen-minute window
has dropped, and the five-minute one is calm. -/
def Swings (now : ℤ) (points : List (ℤ × ℤ)) : Prop :=
  LossVelocityBreaker.Dropped now points ∧ LossVelocityBreaker.Calm now points

instance (now : ℤ) (points : List (ℤ × ℤ)) : Decidable (Swings now points) :=
  inferInstanceAs (Decidable (_ ∧ _))

/-- **A refresh repeated** at the same instant, with rows of the breakers appended in between,
leaves the open set and the store exactly when the loss-velocity breaker is not due both ways. -/
theorem refresh_again_iff (source : EventSource) (now₀ : ℤ) (as : List BreakerAction)
    (equityNow : ℤ) (st : LedgerStore) (more : List Event) :
    let r := Runs.after (step source) (start now₀) as
    let first := r.step source (.refresh equityNow)
    let second := BreakerRun.step source { first with store := st } (.refresh equityNow)
    st.read = first.store.read ++ more → (∀ e ∈ more, isBreaker e = true) →
    ((second.set.openBreakers r.now = first.set.openBreakers r.now ∧ second.store = st) ↔
      ¬ Swings r.now (lossPoints r.now r.store.read equityNow)) := by
  intro r first second hread hmore
  obtain ⟨hw, -⟩ : r.Kept := Runs.invariant (fun r a h => (step_kept source r a h).1)
    (kept_start now₀) as
  have hfirst : first.set = r.set.refreshed r.now r.store.read equityNow :=
    refresh_set hw r.now source equityNow r.set
  obtain ⟨rows, hrows, hbreaker⟩ : ∃ rows, first.store.read = r.store.read ++ rows ∧
      ∀ e ∈ rows, isBreaker e = true :=
    written_rows (refresh_written r.now r.now source equityNow (r.set, r.store))
  have hall : ∀ e ∈ rows ++ more, isBreaker e = true := fun e he =>
    (List.mem_append.mp he).elim (hbreaker e) (hmore e)
  have hevents : st.read = r.store.read ++ (rows ++ more) := by
    rw [hread, hrows, List.append_assoc]
  have hstale : (first.set.refreshed r.now st.read equityNow).dataStale = first.set.dataStale := by
    rw [hfirst, hevents]
    exact refreshed_stale _ _ hall equityNow r.set
  obtain ⟨hset, hsame⟩ := refresh_run_of_fresh (s := first.set) hstale r.now source
  constructor
  · rintro ⟨hopen, -⟩ ⟨hd, hc⟩
    have hsecond : second.set = first.set.refreshed r.now st.read equityNow := hset
    have hmem := congrArg (BreakerName.lossVelocity ∈ ·) hopen
    simp only [eq_iff_iff] at hmem
    rw [mem_openBreakers (by rw [hsecond]; exact refreshed_settled _ _ _ _),
      mem_openBreakers (by rw [hfirst]; exact refreshed_settled _ _ _ _)] at hmem
    have hswing := refreshed_swings r.store.read (rows ++ more) hall equityNow r.set hd hc
    rw [← hevents, ← hfirst, ← hsecond] at hswing
    replace hmem : second.set.lossVelocity.openedAt.isSome = true ↔
      first.set.lossVelocity.openedAt.isSome = true := hmem
    rw [hswing] at hmem
    revert hmem
    generalize first.set.lossVelocity.openedAt.isSome = isOpen
    cases isOpen <;> simp
  · intro hn
    have hfix : first.set.refreshed r.now st.read equityNow = first.set := by
      rw [hfirst, hevents]
      exact refreshed_again _ _ hall equityNow r.set hn
    have hrun := hsame hfix
    have hsecond : second = { first with store := st } := by
      have hnow : first.now = r.now := rfl
      show BreakerRun.perform _ { first with store := st } = _
      unfold BreakerRun.perform
      dsimp only
      rw [hnow, hrun]
    rw [hsecond]
    exact ⟨rfl, rfl⟩

/-- A mark of 1000, ten minutes later one of 970, and two minutes after that a refresh. -/
def swinging : List BreakerAction :=
  [.observed (sampleMark 0 1000) (by simp [Foreign, sampleMark]),
    .observed (sampleMark 600000000 970) (by simp [Foreign, sampleMark]),
    .advance 720000000]

def dropping : List BreakerAction :=
  [.tick 0, .observed (sampleMark 0 1000) (by simp [Foreign, sampleMark]), .advance 300000000]

/-- A drop within the last five minutes. -/
theorem refresh_again_sample :
    let r := Runs.after (step .paper) (start 0) dropping
    let first := r.step .paper (.refresh 970)
    let second := BreakerRun.step .paper { first with store := first.store } (.refresh 970)
    (second.set.openBreakers r.now = first.set.openBreakers r.now ∧ second.store = first.store) ↔
      ¬ Swings r.now (lossPoints r.now r.store.read 970) :=
  refresh_again_iff .paper 0 dropping 970 _ [] (List.append_nil _).symm
    (fun _ he => absurd he List.not_mem_nil)

/-- The first refresh trips the loss-velocity breaker, the second one resets it. -/
theorem refresh_again_swings :
    let r := Runs.after (step .paper) (start 0) swinging
    let first := r.step .paper (.refresh 970)
    let second := first.step .paper (.refresh 970)
    first.set.openBreakers r.now = [.lossVelocity] ∧ second.set.openBreakers r.now = [] ∧
      second.store.count = first.store.count + 1 := by
  decide +kernel

end BreakerRun

end PumpGrok
