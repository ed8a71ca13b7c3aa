import PumpGrok.Risk.RefreshAgain

/-!
Cooldowns along a run of a breaker set whose clock never goes back. Between two states a breaker's
life is kept, opens, or closes; it closes when its recovery condition is met, and the recovery
conditions of the code do not ask whether the cooldown is over.
-/

namespace PumpGrok

open Breaker BreakerSet

/-- The actions of a breaker set under a clock that never goes back; rows of other writers are
stamped in the past. -/
inductive CooldownAction where
  | advance (dt : ℕ)
  | tick (ts : ℤ)
  | miss
  | refresh (equityNow : ℤ)
  | look
  | sync
  | probe (n : BreakerName)
  | outcome (n : BreakerName) (ok : Bool)
  | observed (row : Row) (foreign : Foreign row) (age : ℕ)

namespace CooldownAction

/-- The action as one of a breaker run whose clock shows `now`. -/
def at_ (now : ℤ) : CooldownAction → BreakerAction
  | .advance dt => .advance dt
  | .tick ts => .tick ts
  | .miss => .miss
  | .refresh equityNow => .refresh equityNow
  | .look => .look
  | .sync => .sync
  | .probe n => .probe n
  | .outcome n ok => .outcome n ok
  | .observed row foreign age => .observed { row with ts := now - age } foreign

end CooldownAction

namespace Cooldown

open BreakerRun

def step (source : EventSource) (s : BreakerRun) (a : CooldownAction) : BreakerRun :=
  s.step source (a.at_ s.now)

/-- A breaker once its expiry is read. -/
def held (s : BreakerRun) (n : BreakerName) : Breaker :=
  (s.set.byName n).expire (breakerConfig n) s.now

/-- The streak a tick adds to: a gap since the tick before restarts it. -/
def streak (ts : ℤ) (prev : Option ℤ) (b : Breaker) : ℕ :=
  if prev.any fun t => DataStaleBreaker.freshWindow < ts - t then 0 else b.successes

/-- The action meets the recovery condition of a breaker: a third fresh tick in a row, a calm short
window, or a successful probe. -/
def Recovers (s : BreakerRun) (n : BreakerName) : CooldownAction → Prop
  | .tick ts =>
    n = .dataStale ∧
      (breakerConfig n).resetAfterOk ≤ streak ts s.set.dataStale.prevTick (held s n) + 1
  | .refresh equityNow =>
    n = .lossVelocity ∧
      LossVelocityBreaker.Calm s.now (lossPoints s.now s.store.read equityNow)
  | .outcome m ok =>
    m = n ∧ (s.set.byName n).probeInflight = true ∧ ok = true ∧
      (breakerConfig n).resetAfterOk ≤ (held s n).successes + 1
  | _ => False

/-- No open breaker meets its recovery condition while its cooldown runs. -/
def InTime (s : BreakerRun) (a : CooldownAction) : Prop :=
  ∀ n, ¬ ((held s n).openedAt.isSome = true ∧ Recovers s n a)

/-! ### One breaker -/

/-- What an action does to a breaker whose expiry has been read, given whether its recovery
condition is met. -/
inductive Turn (now : ℤ) (met : Prop) (b b' : Breaker) : Prop where
  | closed (hb : b.Blocking) (h : met) (hc : ¬ b'.Blocking)
  | kept (h : ¬ (b.Blocking ∧ met)) (ho : b'.openedAt = b.openedAt) (hh : b'.halfOpen = b.halfOpen)
  | opened (h : ¬ (b.Blocking ∧ met)) (t : ℤ) (ht : b'.openedAt = some t) (hnow : t ≤ now)
      (hb : b.openedAt = none ∨ t = now)

variable {now : ℤ} {b b' : Breaker}

lemma Turn.refl (now : ℤ) (b : Breaker) : Turn now False b b :=
  .kept (fun h => h.2) rfl rfl

lemma Turn.trip (c : BreakerConfig) {at_ : ℤ} (b : Breaker) (hnow : at_ ≤ now)
    (hb : b.openedAt = none ∨ at_ = now) : Turn now False b (b.trip c at_) :=
  .opened (fun h => h.2) at_ rfl hnow hb

lemma not_blocking (h : ¬ b.Blocking) : b.openedAt = none ∧ b.halfOpen = false := by
  unfold Blocking at h
  push Not at h
  exact ⟨by simpa using h.1, by simpa using h.2⟩

lemma turn_recordSuccess (c : BreakerConfig) (now : ℤ) (b : Breaker) :
    Turn now (c.resetAfterOk ≤ b.successes + 1) b (b.recordSuccess c) := by
  unfold recordSuccess
  split_ifs with h
  · by_cases hb : b.Blocking
    · exact .closed hb h (by simp [Blocking])
    · obtain ⟨ho, hh⟩ := not_blocking hb
      exact .kept (fun h => hb h.1) ho.symm hh.symm
  · exact .kept (fun hm => h hm.2) rfl rfl

lemma turn_noteTick (now ts : ℤ) (b : DataStaleBreaker) :
    Turn now ((breakerConfig .dataStale).resetAfterOk ≤ streak ts b.prevTick b.toBreaker + 1)
      b.toBreaker (b.noteTick ts).toBreaker := by
  have h := turn_recordSuccess (breakerConfig .dataStale) now
    { b.toBreaker with successes := streak ts b.prevTick b.toBreaker }
  have hb : (b.noteTick ts).toBreaker =
      ({ b.toBreaker with successes := streak ts b.prevTick b.toBreaker } : Breaker).recordSuccess
        (breakerConfig .dataStale) := by
    unfold DataStaleBreaker.noteTick streak
    dsimp only
    split_ifs <;> rfl
  rw [hb]
  cases h with
  | closed hb h hc => exact .closed hb h hc
  | kept h ho hh => exact .kept h ho hh
  | opened h t ht hnow hb => exact .opened h t ht hnow hb

lemma turn_noteMiss {b : DataStaleBreaker}
    (hs : Settled (breakerConfig .dataStale) now b.toBreaker) :
    Turn now False b.toBreaker (b.noteMiss now).toBreaker := by
  unfold DataStaleBreaker.noteMiss DataStaleBreaker.config
  simp only [expire_eq hs]
  split_ifs
  · exact Turn.refl _ _
  · exact Turn.trip _ _ le_rfl (.inr rfl)
  · exact Turn.refl _ _

lemma turn_evaluate_dataStale {b : DataStaleBreaker}
    (hs : Settled (breakerConfig .dataStale) now b.toBreaker) :
    Turn now False b.toBreaker (b.evaluate now).toBreaker := by
  unfold DataStaleBreaker.evaluate DataStaleBreaker.config
  simp only [expire_eq hs]
  split_ifs
  · exact Turn.refl _ _
  · exact Turn.trip _ _ le_rfl (.inr rfl)
  · exact Turn.refl _ _

lemma turn_evaluate_lossVelocity {b : LossVelocityBreaker}
    (hs : Settled (breakerConfig .lossVelocity) now b.toBreaker) :
    Turn now (LossVelocityBreaker.Calm now b.points) b.toBreaker (b.evaluate now).toBreaker := by
  by_cases hb : b.Blocking
  · rw [LossVelocityBreaker.evaluate_blocking hs hb]
    split_ifs with hc
    · exact .closed hb hc LossVelocityBreaker.recordSuccess_closed
    · exact .kept (fun h => hc h.2) rfl rfl
  · rw [LossVelocityBreaker.evaluate_closed hs hb]
    split_ifs
    · exact .opened (fun h => hb h.1) now rfl le_rfl (.inr rfl)
    · exact .kept (fun h => hb h.1) rfl rfl

lemma turn_resolveProbe {c : BreakerConfig} {ok : Bool} (h : b.resolveProbe c now ok = .ok b') :
    Turn now (ok = true ∧ c.resetAfterOk ≤ b.successes + 1) b b' := by
  unfold Breaker.resolveProbe at h
  split_ifs at h with hp hok
  · cases h
    cases turn_recordSuccess c now { b with probeInflight := false } with
    | closed hb h hc => exact .closed hb ⟨hok, h⟩ hc
    | kept h ho hh => exact .kept (fun hm => h ⟨hm.1, hm.2.2⟩) ho hh
    | opened h t ht hnow hb => exact .opened (fun hm => h ⟨hm.1, hm.2.2⟩) t ht hnow hb
  · cases h
    exact .opened (fun hm => hok hm.2.1) now rfl le_rfl (.inr rfl)

/-- A counted rejection opens a breaker no later than now. -/
lemma observe_dated {b : ExecErrorsBreaker} {e : Event} (he : e.ts ≤ now)
    (hs : Settled (breakerConfig .execErrors) now b.toBreaker) (hb : ∀ t ∈ b.openedAt, t ≤ now) :
    ∀ t ∈ (b.observe now e).openedAt, t ≤ now := by
  unfold ExecErrorsBreaker.observe
  split
  · split_ifs
    · unfold ExecErrorsBreaker.noteReject ExecErrorsBreaker.config
      simp only [expire_eq hs]
      split_ifs
      · exact hb
      · exact hb
      · rintro t ⟨⟩
        exact he
      · exact hb
    · exact hb
  · exact hb

lemma feed_dated {es : List Event} (hes : ∀ e ∈ es, e.ts ≤ now) {b : ExecErrorsBreaker}
    (hs : Settled (breakerConfig .execErrors) now b.toBreaker) (hb : ∀ t ∈ b.openedAt, t ≤ now) :
    ∀ t ∈ (es.foldl (ExecErrorsBreaker.observe now) b).openedAt, t ≤ now := by
  induction es generalizing b with
  | nil => exact hb
  | cons e es ih =>
    have he : e.ts ≤ now := hes e List.mem_cons_self
    exact ih (fun x hx => hes x (List.mem_cons_of_mem _ hx))
      (ExecErrorsBreaker.observe_moves e hs).1 (observe_dated he hs hb)

lemma turn_feed {es : List Event} (hes : ∀ e ∈ es, e.ts ≤ now) {b : ExecErrorsBreaker}
    (hs : Settled (breakerConfig .execErrors) now b.toBreaker) (hb : ∀ t ∈ b.openedAt, t ≤ now) :
    Turn now False b.toBreaker (es.foldl (ExecErrorsBreaker.observe now) b).toBreaker := by
  rcases ExecErrorsBreaker.feed_cases es hs with h | ⟨hn, ho⟩
  · rw [h]
    exact Turn.refl _ _
  · obtain ⟨t, ht⟩ := Option.isSome_iff_exists.mp ho
    exact .opened (fun h => h.2) t ht (feed_dated hes hs hb t ht) (.inl hn)

lemma openSince_mem {es : List Event} {n : BreakerName} {t : ℤ} (h : openSince es n = some t) :
    ∃ e ∈ es, e.ts = t := by
  induction es using List.reverseRecOn with
  | nil => simp [openSince] at h
  | append_singleton es e ih =>
    rw [openSince_append, List.foldl_cons, List.foldl_nil, seeRow] at h
    split_ifs at h
    · exact ⟨e, by simp, by simpa using h⟩
    · obtain ⟨x, hx, hts⟩ := ih h
      exact ⟨x, by simp [hx], hts⟩

/-! ### One action -/

/-- The clock is past every opening and every row. -/
structure Timed (s : BreakerRun) : Prop where
  kept : s.Kept
  opened : ∀ n, ∀ t ∈ (s.set.byName n).openedAt, t ≤ s.now
  rows : ∀ e ∈ s.store.read, e.ts ≤ s.now

variable {s : BreakerRun} {n : BreakerName} (source : EventSource)

lemma held_settled (s : BreakerRun) (n : BreakerName) :
    Settled (breakerConfig n) s.now (held s n) :=
  expire_settled _ _ _

lemma openedAt_of_held {t : ℤ} (h : (held s n).openedAt = some t) :
    (s.set.byName n).openedAt = some t := by
  unfold held Breaker.expire at h
  rcases ho : (s.set.byName n).openedAt with - | u
  · simp [ho] at h
  · simp only [ho] at h
    split_ifs at h
    rw [← ho]
    exact h

lemma Timed.held (h : Timed s) : ∀ t ∈ (held s n).openedAt, t ≤ s.now :=
  fun t ht => h.opened n t (openedAt_of_held ht)

/-- The breaker is as it was and its condition not met, or it took a turn. -/
def Turned (source : EventSource) (s : BreakerRun) (a : CooldownAction) (n : BreakerName) : Prop :=
  (step source s a).set.byName n = s.set.byName n ∧ ¬ Recovers s n a ∨
    Turn s.now (Recovers s n a) (held s n) ((step source s a).set.byName n)

lemma Turn.congr {now : ℤ} {b b' : Breaker} {p q : Prop} (h : Turn now p b b') (hpq : p ↔ q) :
    Turn now q b b' := by
  rwa [← propext hpq]

lemma turned_tick (h : Timed s) (ts : ℤ) : Turned source s (.tick ts) n := by
  obtain ⟨st', hr, -, -⟩ := operation_spec s.now s.now source false (n := .dataStale) (s := s.set)
    (f := fun b => { b with dataStale := b.dataStale.noteTick ts }) rfl h.kept.1
    (moves_noteTick s.now ts _)
  have hset : (step source s (.tick ts)).set = _ := congrArg (fun r => r.2.1) hr
  unfold Turned
  rw [hset]
  cases n with
  | dataStale =>
    have ht := turn_noteTick s.now ts
      (s.set.update (held s .dataStale) .dataStale).dataStale
    refine .inr (Turn.congr ht ?_)
    simp only [Recovers, true_and]
    rfl
  | lossVelocity => exact .inl ⟨rfl, fun h => nomatch h.1⟩
  | execErrors => exact .inl ⟨rfl, fun h => nomatch h.1⟩

lemma turned_miss (h : Timed s) : Turned source s .miss n := by
  have hs : Settled (breakerConfig .dataStale) s.now
      (s.set.update (held s .dataStale) .dataStale).dataStale.toBreaker := held_settled s .dataStale
  obtain ⟨st', hr, -, -⟩ := operation_spec s.now s.now source false (n := .dataStale) (s := s.set)
    (f := fun b => { b with dataStale := b.dataStale.noteMiss s.now }) rfl h.kept.1
    (moves_noteMiss hs)
  have hset : (step source s .miss).set = _ := congrArg (fun r => r.2.1) hr
  unfold Turned
  rw [hset]
  cases n with
  | dataStale => exact .inr (turn_noteMiss hs)
  | lossVelocity => exact .inl ⟨rfl, id⟩
  | execErrors => exact .inl ⟨rfl, id⟩

/-- What a refresh evaluates: the silence, the window of the ledger's marks, and the rejections of
the ledger. -/
lemma refreshed_breakers (now : ℤ) (es : List Event) (equityNow : ℤ) (s : BreakerSet) :
    (s.refreshed now es equityNow).dataStale = (s.expireAll now).dataStale.evaluate now ∧
    (∃ l : LossVelocityBreaker, (s.refreshed now es equityNow).lossVelocity = l.evaluate now ∧
      l.toBreaker = (s.expireAll now).lossVelocity.toBreaker ∧
      l.points = lossPoints now es equityNow) ∧
    (s.refreshed now es equityNow).execErrors = es.foldl (ExecErrorsBreaker.observe now)
      { (s.expireAll now).execErrors with rejects := [] } := by
  obtain ⟨hstale, hloss, -⟩ := observe_foldl_spec es (s := { s.expireAll now with
    execErrors := { (s.expireAll now).execErrors with rejects := [] }
    lossVelocity := { (s.expireAll now).lossVelocity with points := [] } })
      (expireAll_settled now s .execErrors)
  refine ⟨?_, ⟨_, rfl, hloss, observeAll_points es equityNow (s.expireAll now)⟩, ?_⟩
  · exact congrArg (DataStaleBreaker.evaluate now) hstale
  · exact observe_execErrors es

lemma turned_refresh (h : Timed s) (equityNow : ℤ) : Turned source s (.refresh equityNow) n := by
  have hset : (step source s (.refresh equityNow)).set = _ :=
    refresh_set h.kept.1 s.now source equityNow s.set
  obtain ⟨hstale, ⟨l, hloss, hl, hpoints⟩, hexec⟩ :=
    refreshed_breakers s.now s.store.read equityNow s.set
  unfold Turned
  rw [hset]
  refine .inr ?_
  cases n with
  | dataStale =>
    refine Turn.congr (p := False) ?_ (by simp [Recovers])
    have ht := turn_evaluate_dataStale (b := (s.set.expireAll s.now).dataStale)
      (held_settled s .dataStale)
    rw [← hstale] at ht
    exact ht
  | lossVelocity =>
    refine Turn.congr (p := LossVelocityBreaker.Calm s.now
      (lossPoints s.now s.store.read equityNow)) ?_ (by simp [Recovers])
    have ht := @turn_evaluate_lossVelocity s.now l (hl ▸ held_settled s .lossVelocity)
    rw [← hloss, hl, hpoints] at ht
    exact ht
  | execErrors =>
    refine Turn.congr (p := False) ?_ (by simp [Recovers])
    have ht := turn_feed (b := { (s.set.expireAll s.now).execErrors with rejects := [] }) h.rows
      (held_settled s .execErrors) h.held
    rw [← hexec] at ht
    exact ht

lemma turned_look (s : BreakerRun) : Turned source s .look n := by
  refine .inr ?_
  have hb : (step source s .look).set.byName n = held s n := byName_expireAll s.now s.set n
  rw [hb]
  exact Turn.refl _ _

lemma turned_probe (s : BreakerRun) (m : BreakerName) : Turned source s (.probe m) n := by
  by_cases hm : n = m
  · subst hm
    have hb : (step source s (.probe n)).set.byName n =
        ((s.set.byName n).admitProbe (breakerConfig n) s.now).2 := by
      simp [step, BreakerRun.step, CooldownAction.at_, BreakerSet.admitProbe]
    obtain ⟨ho, hh, -⟩ := admitProbe_sameLife (breakerConfig n) s.now (s.set.byName n)
    refine .inr (.kept (fun h => h.2) ?_ ?_)
    · rw [hb]
      exact ho
    · rw [hb]
      exact hh
  · refine .inl ⟨?_, id⟩
    simp [step, BreakerRun.step, CooldownAction.at_, BreakerSet.admitProbe, hm]

lemma turned_outcome (h : Timed s) (m : BreakerName) (ok : Bool) :
    Turned source s (.outcome m ok) n := by
  have hread : readState s.now m (s.set, s.store) =
      (.ok (s.set.state s.now m), s.set.update (held s m) m, s.store) := rfl
  have hprobe : (held s m).probeInflight = (s.set.byName m).probeInflight :=
    expire_probeInflight _ _ _
  have hother : ∀ b' : Breaker, n ≠ m →
      ((s.set.update b' m).byName n = s.set.byName n ∧ ¬ Recovers s n (.outcome m ok)) :=
    fun b' hn => ⟨by simp [hn], fun hr => hn hr.1.symm⟩
  rcases hres : (held s m).resolveProbe (breakerConfig m) s.now ok with x | b'
  · -- no probe is in flight: the reading of the state is all that happens
    have hp : (s.set.byName m).probeInflight = false := by
      unfold Breaker.resolveProbe at hres
      split_ifs at hres with hp
      rw [← hprobe]
      simpa using hp
    have hraise : BreakerSet.resolveProbe s.now m ok s.now source (s.set, s.store) =
        (.error x, s.set.update (held s m) m, s.store) := by
      unfold BreakerSet.resolveProbe
      rw [Prog.bind_run_ok hread]
      refine Prog.bind_run_error ?_
      simp [Prog.resultOf, hres]
    have hset : (step source s (.outcome m ok)).set = _ := congrArg (fun r => r.2.1) hraise
    unfold Turned
    rw [hset]
    by_cases hn : n = m
    · subst hn
      refine .inr (.kept ?_ (by simp) (by simp))
      rintro ⟨-, -, hp', -⟩
      simp [hp] at hp'
    · exact .inl (hother _ hn)
  · have hm : Moves (breakerConfig m) s.now (held s m) b' :=
      moves_resolveProbe (cooldown_pos m) hres
    have hp : (s.set.byName m).probeInflight = true := by
      rw [← hprobe]
      unfold Breaker.resolveProbe at hres
      split_ifs at hres with hp <;> simpa using hp
    have hm' : Moves (breakerConfig m) s.now (held s m)
        (((s.set.update (held s m) m).update b' m).byName m) := by
      rw [byName_update, if_pos rfl]
      exact hm
    obtain ⟨st', hr, -, -⟩ := operation_spec s.now s.now source ok (f := fun a => a.update b' m)
      rfl h.kept.1 hm'
    have hput : Prog.resultOf (fun a : Bound => (a.1.byName m).resolveProbe (breakerConfig m)
        s.now ok) (fun b a => (a.1.update b m, a.2)) (s.set.update (held s m) m, s.store) =
        (.ok (), (s.set.update (held s m) m).update b' m, s.store) := by
      simp [Prog.resultOf, hres]
    have hrun : BreakerSet.resolveProbe s.now m ok s.now source (s.set, s.store) =
        (.ok (), (s.set.update (held s m) m).update b' m, st') := by
      refine Eq.trans ?_ hr
      unfold BreakerSet.resolveProbe
      rw [Prog.bind_run_ok hread, Prog.bind_run_ok hread, Prog.bind_run_ok hput,
        Prog.bind_run_ok (Prog.modify_run _ _)]
    have hset : (step source s (.outcome m ok)).set = _ := congrArg (fun r => r.2.1) hrun
    have htwice : (s.set.update (held s m) m).update b' m = s.set.update b' m := by
      cases m <;> rfl
    rw [htwice] at hset
    unfold Turned
    rw [hset]
    by_cases hn : n = m
    · subst hn
      refine .inr ?_
      rw [byName_update, if_pos rfl]
      refine (turn_resolveProbe hres).congr ?_
      simp [Recovers, hp]
    · exact .inl (hother b' hn)

lemma turn_syncOne {now : ℤ} {es : List Event} (hes : ∀ e ∈ es, e.ts ≤ now) (set : BreakerSet)
    (n : BreakerName) : (syncOne now es set n).byName n = set.byName n ∨
      Turn now False ((set.byName n).expire (breakerConfig n) now)
        ((syncOne now es set n).byName n) := by
  unfold syncOne
  rcases ho : openSince es n with - | since
  · exact .inl rfl
  · obtain ⟨e, he, rfl⟩ := openSince_mem ho
    refine .inr ?_
    dsimp only
    split_ifs with hb
    · rw [byName_update, if_pos rfl]
      exact Turn.refl _ _
    · push Not at hb
      rw [byName_update, if_pos rfl]
      exact .opened (fun h => h.2) e.ts rfl (hes e he) (.inl (by simpa using hb.1))

lemma turned_sync (h : Timed s) : Turned source s .sync n := by
  have hother : ∀ (set : BreakerSet) (m : BreakerName), n ≠ m →
      (syncOne s.now s.store.read set m).byName n = set.byName n :=
    fun set m hm => byName_syncOne_ne _ hm
  have hone : ∀ set : BreakerSet, set.byName n = s.set.byName n →
      (syncOne s.now s.store.read set n).byName n = s.set.byName n ∨
        Turn s.now False (held s n) ((syncOne s.now s.store.read set n).byName n) := by
    intro set hset
    have ht := turn_syncOne h.rows set n
    rw [hset] at ht
    exact ht
  suffices hfold : (step source s .sync).set.byName n = s.set.byName n ∨
      Turn s.now False (held s n) ((step source s .sync).set.byName n) from
    hfold.imp_left fun heq => ⟨heq, id⟩
  show (breakerNames.foldl (syncOne s.now s.store.read) s.set).byName n = _ ∨
    Turn _ _ _ ((breakerNames.foldl (syncOne s.now s.store.read) s.set).byName n)
  unfold breakerNames
  simp only [List.foldl_cons, List.foldl_nil]
  cases n with
  | dataStale =>
    rw [hother _ .execErrors (by simp), hother _ .lossVelocity (by simp)]
    exact hone _ rfl
  | lossVelocity =>
    rw [hother _ .execErrors (by simp)]
    exact hone _ (hother _ .dataStale (by simp))
  | execErrors =>
    exact hone _ ((hother _ .lossVelocity (by simp)).trans (hother _ .dataStale (by simp)))

lemma turned (h : Timed s) (a : CooldownAction) (n : BreakerName) : Turned source s a n := by
  cases a with
  | advance dt => exact .inl ⟨rfl, id⟩
  | tick ts => exact turned_tick source h ts
  | miss => exact turned_miss source h
  | refresh equityNow => exact turned_refresh source h equityNow
  | look => exact turned_look source s
  | sync => exact turned_sync source h
  | probe m => exact turned_probe source s m
  | outcome m ok => exact turned_outcome source h m ok
  | observed row hf age => exact .inl ⟨rfl, id⟩

/-! ### The clock and the rows -/

lemma now_step (s : BreakerRun) (a : CooldownAction) : s.now ≤ (step source s a).now := by
  cases a with
  | advance dt =>
    show s.now ≤ s.now + dt
    omega
  | _ => exact le_rfl

/-- The clock stands still but for the passing of time. -/
lemma now_of_recovers {a : CooldownAction} (h : Recovers s n a) :
    (step source s a).now = s.now := by
  cases a with
  | advance dt => exact h.elim
  | _ => rfl

lemma rows_of_appends {now : ℤ} {m : Prog Bound Exc Unit} {st : Bound}
    (hm : Prog.Keeps (Appends fun _ rows => ∀ row ∈ rows, row.ts = now) m)
    (h : ∀ e ∈ st.2.read, e.ts ≤ now) : ∀ e ∈ (m st).2.2.read, e.ts ≤ now := by
  refine (hm st).invariant (I := fun st => ∀ e ∈ st.read, e.ts ≤ now) (fun _ _ h => h) ?_ h
  intro st rows hst _ hrows e he
  rw [LedgerStore.read_commit, List.mem_append] at he
  rcases he with he | he
  · exact hst e he
  · have hrow : e.toRow ∈ rows := by
      have hmem := List.mem_map_of_mem (f := (·.toRow)) he
      rwa [LedgerStore.stamp_toRow] at hmem
    exact le_of_eq (hrows _ hrow)

lemma admits_stamped (now : ℤ) (source : EventSource) :
    Admits (fun _ rows => ∀ row ∈ rows, row.ts = now) now source where
  trip st n row h := by
    rw [List.mem_singleton.mp h]
    rfl
  reset st n probeOk row h := by
    rw [List.mem_singleton.mp h]
    rfl

lemma rows_step (h : ∀ e ∈ s.store.read, e.ts ≤ s.now) (a : CooldownAction) :
    ∀ e ∈ (step source s a).store.read, e.ts ≤ (step source s a).now := by
  have hA := admits_stamped s.now source
  cases a with
  | advance dt => exact fun e he => (h e he).trans (now_step source s (.advance dt))
  | tick ts => exact rows_of_appends (noteTick_appends hA s.now ts) h
  | miss => exact rows_of_appends (noteMiss_appends hA s.now) h
  | refresh equityNow => exact rows_of_appends (refresh_appends hA s.now equityNow) h
  | look => exact h
  | sync => exact h
  | probe n => exact h
  | outcome n ok => exact rows_of_appends (resolveProbe_appends hA s.now n ok) h
  | observed row hf age =>
    intro e he
    show e.ts ≤ s.now
    rcases ha : LedgerStore.append { row with ts := s.now - age } s.store with ⟨x | u, st'⟩
    · obtain ⟨rfl, -⟩ := LedgerStore.append_error_iff.mp ha
      refine h e ?_
      have hst : (step source s (.observed row hf age)).store = s.store :=
        congrArg Prod.snd ha
      rwa [hst] at he
    · obtain ⟨-, -, -, rfl⟩ := LedgerStore.append_ok_iff.mp ha
      have hst : (step source s (.observed row hf age)).store = s.store.commit _ :=
        congrArg Prod.snd ha
      rw [hst, LedgerStore.read_commit, List.mem_append] at he
      rcases he with he | he
      · exact h e he
      · obtain rfl := List.mem_singleton.mp he
        show s.now - age ≤ s.now
        omega

lemma timed_step (h : Timed s) (a : CooldownAction) : Timed (step source s a) where
  kept := (step_kept source s (a.at_ s.now) h.kept).1
  opened n t ht := by
    refine le_trans ?_ (now_step source s a)
    rcases turned source h a n with ⟨heq, -⟩ | hturn
    · rw [heq] at ht
      exact h.opened n t ht
    · cases hturn with
      | closed hb hr hc => exact absurd (.inl (by simp [Option.mem_def.mp ht])) hc
      | kept hn ho hh =>
        rw [ho] at ht
        exact h.held t ht
      | opened hn u hu hnow hb =>
        obtain rfl : u = t := by simpa [hu] using ht
        exact hnow
  rows := rows_step source h.rows a

lemma timed_start (now : ℤ) : Timed (start now) where
  kept := kept_start now
  opened n t ht := by
    cases n <;> simp [start, byName] at ht
  rows := by simp [start, LedgerStore.read]

/-! ### One step of a run -/

variable {a : CooldownAction}

lemma held_eq {t : ℤ} (ht : (s.set.byName n).openedAt = some t)
    (hlt : s.now < t + (breakerConfig n).cooldown) : held s n = s.set.byName n := by
  refine expire_eq fun u hu => ?_
  obtain rfl : t = u := by simpa [ht] using hu
  omega

/-- An opening outlasts a step taken in time that ends within its cooldown. -/
lemma lasts (h : Timed s) (hin : InTime s a) {t : ℤ}
    (ht : (s.set.byName n).openedAt = some t)
    (hlt : (step source s a).now < t + (breakerConfig n).cooldown) :
    ∃ u, t ≤ u ∧ ((step source s a).set.byName n).openedAt = some u := by
  rcases turned source h a n with ⟨heq, -⟩ | hturn
  · exact ⟨t, le_rfl, by rw [heq, ht]⟩
  · have hheld := held_eq ht (lt_of_le_of_lt (now_step source s a) hlt)
    rw [hheld] at hturn
    cases hturn with
    | closed hb hr hc => exact absurd ⟨by rw [hheld, ht]; rfl, hr⟩ (hin n)
    | kept hn ho hh => exact ⟨t, le_rfl, ho.trans ht⟩
    | opened hn u hu hnow hb =>
      rcases hb with hb | rfl
      · simp [ht] at hb
      · exact ⟨_, h.opened n t ht, hu⟩

/-- A step out of time closes a breaker whose cooldown runs. -/
lemma closes_early (h : Timed s) (ho : (held s n).openedAt.isSome = true)
    (hr : Recovers s n a) : ¬ ((step source s a).set.byName n).Blocking := by
  have hb : (held s n).Blocking := .inl ho
  rcases turned source h a n with ⟨-, hn⟩ | hturn
  · exact absurd hr hn
  · cases hturn with
    | closed hb hr hc => exact hc
    | kept hn => exact absurd ⟨hb, hr⟩ hn
    | opened hn => exact absurd ⟨hb, hr⟩ hn

/-- A step in time closes from half-open, by meeting the recovery condition. -/
lemma closes_half_open (h : Timed s) (hin : InTime s a) (hb : (s.set.byName n).Blocking)
    (hc : ¬ ((step source s a).set.byName n).Blocking) :
    (held s n).openedAt = none ∧ (held s n).halfOpen = true ∧ Recovers s n a := by
  have hheld : (held s n).Blocking := (expire_blocking _ _ _).mpr hb
  rcases turned source h a n with ⟨heq, -⟩ | hturn
  · rw [heq] at hc
    exact absurd hb hc
  · cases hturn with
    | closed _ hr _ =>
      have hnone : (held s n).openedAt = none := by
        by_contra hne
        exact hin n ⟨Option.isSome_iff_ne_none.mpr hne, hr⟩
      refine ⟨hnone, ?_, hr⟩
      simpa [Blocking, hnone] using hheld
    | kept _ ho hh =>
      refine absurd ?_ hc
      unfold Blocking
      rw [ho, hh]
      exact hheld
    | opened _ u hu =>
      exact absurd (.inl (by rw [hu]; rfl)) hc

/-! ### Whole runs -/

lemma timed_after (now : ℤ) (as : List CooldownAction) :
    Timed (Runs.after (step source) (start now) as) :=
  Runs.invariant (I := Timed) (fun _ a h => timed_step source h a) (timed_start now) as

lemma now_after (s : BreakerRun) (as : List CooldownAction) :
    s.now ≤ (Runs.after (step source) s as).now :=
  Runs.related (R := fun s t : BreakerRun => s.now ≤ t.now) (fun _ => le_rfl)
    (fun _ _ _ h k => le_trans h k) (now_step source) s as

/-- **An opening outlasts a run** taken in time that ends within its cooldown. -/
lemma outlasts {as : List CooldownAction} (h : Timed s) (hin : Runs.Along (step source) InTime s as)
    {t : ℤ} (ht : (s.set.byName n).openedAt = some t)
    (hlt : (Runs.after (step source) s as).now < t + (breakerConfig n).cooldown) :
    ∃ u, t ≤ u ∧ ((Runs.after (step source) s as).set.byName n).openedAt = some u := by
  induction as generalizing s t with
  | nil => exact ⟨t, le_rfl, ht⟩
  | cons a as ih =>
    obtain ⟨u, hu, hopen⟩ := lasts source h hin.1 ht
      (lt_of_le_of_lt (now_after source _ as) hlt)
    obtain ⟨v, hv, hlast⟩ := ih (timed_step source h a) hin.2 hopen (by
      rw [Runs.after_cons] at hlt
      omega)
    exact ⟨v, hu.trans hv, hlast⟩

lemma mem_open {s : BreakerRun} {n : BreakerName} :
    n ∈ s.set.openBreakers s.now ↔ (held s n).openedAt.isSome = true := by
  unfold openBreakers held
  rw [List.mem_filter, byName_expireAll]
  cases n <;> simp [breakerNames]

/-- What holds of a run's last state: a breaker that opened at a time whose cooldown is not over is
among the open ones, and one that has just closed was half-open and met its recovery condition. -/
structure Served (source : EventSource) (now₀ : ℤ) (as : List CooldownAction) : Prop where
  blocks : ∀ bs cs, as = bs ++ cs → ∀ n t,
    ((Runs.after (step source) (start now₀) bs).set.byName n).openedAt = some t →
    (Runs.after (step source) (start now₀) as).now < t + (breakerConfig n).cooldown →
    n ∈ (Runs.after (step source) (start now₀) as).set.openBreakers
      (Runs.after (step source) (start now₀) as).now
  closes : ∀ bs a, as = bs ++ [a] → ∀ n,
    ((Runs.after (step source) (start now₀) bs).set.byName n).Blocking →
    ¬ ((Runs.after (step source) (start now₀) as).set.byName n).Blocking →
    (held (Runs.after (step source) (start now₀) bs) n).openedAt = none ∧
      (held (Runs.after (step source) (start now₀) bs) n).halfOpen = true ∧
      Recovers (Runs.after (step source) (start now₀) bs) n a

/-- **Cooldowns are served** in every state of a run exactly when no step of it meets the recovery
condition of a breaker whose cooldown still runs. -/
theorem served_iff (source : EventSource) (now₀ : ℤ) (as : List CooldownAction) :
    (∀ bs, bs <+: as → Served source now₀ bs) ↔
      Runs.Along (step source) InTime (start now₀) as := by
  constructor
  · intro h
    refine Runs.along_iff_cuts.mpr fun bs a hbs n hearly => ?_
    obtain ⟨ho, hr⟩ := hearly
    set s := Runs.after (step source) (start now₀) bs
    have hsnoc : Runs.after (step source) (start now₀) (bs ++ [a]) = step source s a := by
      rw [Runs.after_snoc]
    obtain ⟨t, ht⟩ := Option.isSome_iff_exists.mp ho
    have hlt : s.now - t < (breakerConfig n).cooldown := held_settled s n t ht
    have hblocks := (h _ hbs).blocks bs [a] rfl n t (openedAt_of_held ht)
    rw [hsnoc, now_of_recovers source hr] at hblocks
    have hopen := hblocks (by omega)
    rw [← now_of_recovers source hr, mem_open] at hopen
    refine closes_early source (timed_after source now₀ bs) ho hr ?_
    exact (expire_blocking _ _ _).mp (.inl hopen)
  · intro h bs hbs
    obtain ⟨rest, rfl⟩ := hbs
    obtain ⟨hin, -⟩ := Runs.along_append.mp h
    constructor
    · rintro cs ds rfl n t ht hlt
      obtain ⟨-, hds⟩ := Runs.along_append.mp hin
      rw [Runs.after_append] at hlt ⊢
      obtain ⟨u, hu, hopen⟩ := outlasts source (timed_after source now₀ cs) hds ht hlt
      rw [mem_open, held_eq hopen (by omega), hopen]
      rfl
    · rintro cs a rfl n hb hc
      obtain ⟨-, hlast⟩ := Runs.along_append.mp hin
      rw [Runs.after_snoc] at hc
      exact closes_half_open source (timed_after source now₀ cs) hlast.1 hb hc

lemma foreign_sampleMark (ts equity : ℤ) : Foreign (sampleMark ts equity) := by
  simp [Foreign, sampleMark]

/-- A three percent drop trips the loss-velocity breaker; a minute later the last five are calm. -/
def calmedDown : List CooldownAction :=
  [.observed (sampleMark 0 1000) (foreign_sampleMark 0 1000) 0, .advance 600000000,
    .refresh 970, .observed (sampleMark 1 970) (foreign_sampleMark 1 970) 0,
    .advance 60000000, .refresh 970]

/-- Three misses trip the data-stale breaker; three ticks follow. -/
def ticksAgain : List CooldownAction :=
  [.miss, .miss, .miss, .advance 1000000, .tick 1000000, .tick 2000000, .tick 3000000]

def sampleReject (k : ℕ) : Row where
  ts := 0
  source := .paper
  key := .other k
  payload := .orderRejected
    { orderId := .placed k
      decisionId := k
      reason := .txDropped
      detail := .confirmingRecheck
      stage := .confirming }

def sampleRejects (k : ℕ) : List CooldownAction :=
  [.observed (sampleReject k) (by simp [Foreign, sampleReject]) 0,
    .observed (sampleReject (k + 1)) (by simp [Foreign, sampleReject]) 0,
    .observed (sampleReject (k + 2)) (by simp [Foreign, sampleReject]) 0, .refresh 1000]

/-- The probe of a half-open breaker succeeds after three more rejections have tripped it. -/
def lateProbe : List CooldownAction :=
  sampleRejects 0 ++ [.advance 900000000, .probe .execErrors] ++ sampleRejects 3 ++
    [.outcome .execErrors true]

/-- Each of the three breakers is closed while its cooldown runs. -/
theorem closed_early :
    ¬ Served .paper 0 calmedDown ∧ ¬ Served .paper 0 ticksAgain ∧ ¬ Served .paper 0 lateProbe := by
  have hopen : ∀ {as bs : List CooldownAction} {a : CooldownAction} {n : BreakerName} {t : ℤ},
      as = bs ++ [a] → ((Runs.after (step .paper) (start 0) bs).set.byName n).openedAt = some t →
      (Runs.after (step .paper) (start 0) as).now < t + (breakerConfig n).cooldown →
      (Runs.after (step .paper) (start 0) as).set.openBreakers
        (Runs.after (step .paper) (start 0) as).now = [] → ¬ Served .paper 0 as := by
    intro as bs a n t has ht hlt hnil h
    have hmem := h.blocks bs [a] has n t ht hlt
    rw [hnil] at hmem
    exact absurd hmem List.not_mem_nil
  refine ⟨?_, ?_, ?_⟩
  · exact @hopen _ (calmedDown.dropLast) (.refresh 970) .lossVelocity 600000000 rfl
      (by decide +kernel) (by decide +kernel) (by decide +kernel)
  · exact @hopen _ (ticksAgain.dropLast) (.tick 3000000) .dataStale 0 rfl
      (by decide +kernel) (by decide +kernel) (by decide +kernel)
  · exact @hopen _ (lateProbe.dropLast) (.outcome .execErrors true) .execErrors 900000000 rfl
      (by decide +kernel) (by decide +kernel) (by decide +kernel)

end Cooldown

end PumpGrok
