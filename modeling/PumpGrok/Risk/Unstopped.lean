import PumpGrok.Risk.AlertLines
import PumpGrok.Risk.PassedWalk

/-!
The stops a buy is checked against: the halt and the kill switch of the ledger, the switch's own
sources, and the breakers. An evaluation that passes a buy returns on a desk where none of them
stops it.
-/

namespace PumpGrok

open Prog

/-! ### The kill switch -/

namespace KillSwitch

/-- A source of the switch is engaged. -/
def Engaged (k : KillSwitch) (es : List Event) : Prop :=
  envEngaged k.envStart = true ∨ k.isFile = true ∨ k.pendingState.isSome = true ∨
    (latestSet es).isSome = true

lemma pendingState_active {k : KillSwitch} {state : KillState} (h : k.pendingState = some state) :
    state.active = true := by
  obtain ⟨p, -, rfl⟩ := Option.map_eq_some_iff.mp h
  rfl

lemma engagedState_active (k : KillSwitch) (es : List Event) :
    (k.engagedState es).1.active = true ↔ k.Engaged es := by
  unfold engagedState Engaged
  split_ifs with henv hfile
  · simp [henv]
  · simp only [hfile, true_or, or_true, iff_true]
    split
    · split_ifs
      · rfl
      · exact fileState_active _
    · exact fileState_active _
  · rcases hp : k.pendingState with - | state
    · rcases hl : latestSet es with - | p <;> simp [ledgerState, hl, henv, hfile]
    · simp [pendingState_active hp]

lemma engagedState_sources (k : KillSwitch) (es : List Event) :
    (k.engagedState es).2.envStart = k.envStart ∧ (k.engagedState es).2.hasPath = k.hasPath ∧
      (k.engagedState es).2.file = k.file ∧ (k.engagedState es).2.pendingLine = k.pendingLine := by
  unfold engagedState
  split_ifs
  · exact ⟨rfl, rfl, rfl, rfl⟩
  · rcases k.alertLatch with - | a
    · exact ⟨rfl, rfl, rfl, rfl⟩
    · dsimp only
      split_ifs <;> exact ⟨rfl, rfl, rfl, rfl⟩
  · rcases k.pendingState with - | state <;> exact ⟨rfl, rfl, rfl, rfl⟩

lemma poll_active_iff (k : KillSwitch) (es : List Event) :
    (k.poll es).1.active = true ↔ k.Engaged es := by
  rw [← engagedState_active]
  unfold poll
  dsimp only
  split_ifs <;> simp_all

/-- A poll changes none of the sources. -/
lemma poll_engaged (k : KillSwitch) (es fs : List Event) :
    (k.poll es).2.Engaged fs ↔ k.Engaged fs := by
  have h : (k.poll es).2.envStart = k.envStart ∧ (k.poll es).2.hasPath = k.hasPath ∧
      (k.poll es).2.file = k.file ∧ (k.poll es).2.pendingLine = k.pendingLine := by
    have hs := engagedState_sources k es
    unfold poll
    dsimp only
    split_ifs <;> exact hs
  obtain ⟨henv, hpath, hfile, hline⟩ := h
  unfold Engaged isFile pendingState
  rw [henv, hpath, hfile, hline]

lemma latestSet_write {row : Row} {p : KillSwitchSet} (hp : row.payload = .killSwitchSet p)
    {xs : List Exc} {st : LedgerStore} (h : (latestSet st.read).isSome = true) :
    (latestSet (LedgerStore.appendSuppressing xs row st).2.read).isSome = true := by
  rcases LedgerStore.appendSuppressing_run xs row st with ⟨-, -, hr⟩ | ⟨x, -, hr⟩
  · rw [hr, LedgerStore.read_commit, LedgerStore.stamp, LedgerStore.stamp,
      latestSet_append_singleton, hp]
    rfl
  · rw [hr]
    exact h

/-- An observation of a switch that is still idle after it wrote nothing. -/
lemma observe_idle {ts : ℤ} {source : EventSource} {k k' : KillSwitch} {st st' : LedgerStore}
    (h : observe ts source (k, st) = (.ok (), k', st'))
    (hidle : (k'.poll st'.read).1.active = false) : st' = st ∧ ¬ k'.Engaged st.read := by
  have hnot : ¬ k'.Engaged st'.read := by
    rw [← poll_active_iff, hidle]
    simp
  unfold observe at h
  dsimp only at h
  split_ifs at h with hw
  · obtain ⟨-, hs⟩ := Prod.mk.inj h
    obtain ⟨rfl, rfl⟩ := Prod.mk.inj hs
    exact ⟨rfl, hnot⟩
  · -- a row is written for an engaged switch alone, and leaves it engaged
    rw [Bool.or_eq_true, not_or, Bool.not_eq_true, Bool.not_eq_false'] at hw
    obtain ⟨-, hs⟩ := Prod.mk.inj h
    obtain ⟨rfl, rfl⟩ := Prod.mk.inj hs
    have hengaged := (poll_active_iff _ _).mp hw.1
    refine absurd ?_ hnot
    rw [poll_engaged]
    rcases hengaged with he | he | he | he
    · exact .inl he
    · exact .inr (.inl he)
    · exact .inr (.inr (.inl he))
    · refine .inr (.inr (.inr ?_))
      exact latestSet_write rfl he

/-- The fold's switch is on while its newest set row is not cleared. -/
lemma replay_killSwitch (e₀ day : ℤ) (es : List Event) :
    (replay (initialState e₀ day) es).killSwitch.active = (latestSet es).isSome := by
  induction es using List.reverseRecOn with
  | nil => rfl
  | append_singleton es e ih =>
    rw [replay_append, replay_cons, replay_nil, reduce, latestSet_append_singleton]
    dsimp only
    rw [handle_killSwitch]
    cases e.payload <;> first | exact ih | rfl

end KillSwitch

/-! ### The breakers -/

namespace BreakerSet

/-- A refresh that returns leaves its set as evaluated. -/
lemma refresh_ok {now ts : ℤ} {source : EventSource} {equity : ℤ} {s s' : BreakerSet}
    {st st' : LedgerStore} (h : refresh now ts source equity (s, st) = (.ok (), s', st')) :
    s' = s.refreshed now st.read equity := by
  have hset := observed_settled now st.read equity s
  unfold refresh at h
  rw [Prog.bind_run_ok (Prog.read_run _ _), Prog.bind_run_ok (Prog.modify_run _ _)] at h
  obtain ⟨⟨⟩, ⟨s₁, st₁⟩, h₁, h⟩ := Prog.bind_ok_iff.mp h
  obtain ⟨⟨⟩, ⟨s₂, st₂⟩, h₂, h₃⟩ := Prog.bind_ok_iff.mp h
  dsimp only at h₁
  have hs₁ : s₁ = ((s.expireAll now).observeAll now st.read equity).evaluate now .dataStale := by
    have := refreshOne_set (s := (s.expireAll now).observeAll now st.read equity) ts source
      (s.state now) st (n := .dataStale) ((moves_evaluate_dataStale (hset .dataStale)).settled
        (hset .dataStale))
    rw [h₁] at this
    exact this
  subst hs₁
  have hs₂ : s₂ =
      (((s.expireAll now).observeAll now st.read equity).evaluate now .dataStale).evaluate
      now .lossVelocity := by
    have := refreshOne_set
      (s := ((s.expireAll now).observeAll now st.read equity).evaluate now .dataStale) ts source
      (s.state now) st₁ (n := .lossVelocity)
      (LossVelocityBreaker.evaluate_settled (hset .lossVelocity))
    rw [h₂] at this
    exact this
  subst hs₂
  have := refreshOne_set
    (s := (((s.expireAll now).observeAll now st.read equity).evaluate now .dataStale).evaluate
      now .lossVelocity) ts source (s.state now) st₂ (n := .execErrors) (hset .execErrors)
  rw [h₃] at this
  exact this

variable {now : ℤ} {s : BreakerSet}

lemma openBreakers_settled (hs : ∀ n, Breaker.Settled (breakerConfig n) now (s.byName n)) :
    s.openBreakers now = [] ↔ ∀ n, (s.byName n).openedAt = none := by
  rw [List.eq_nil_iff_forall_not_mem]
  refine forall_congr' fun n => ?_
  rw [mem_openBreakers hs, Bool.not_eq_true, Option.isSome_eq_false_iff, Option.isNone_iff_eq_none]

lemma mem_halfOpenBreakers {n : BreakerName}
    (hs : ∀ n, Breaker.Settled (breakerConfig n) now (s.byName n))
    (h : n ∈ s.halfOpenBreakers now) :
    (s.byName n).halfOpen = true ∧ (s.byName n).probeInflight = false := by
  unfold halfOpenBreakers at h
  rw [List.mem_filter, expireAll_eq hs] at h
  simpa using h.2

end BreakerSet

/-! ### Probes -/

/-- Only a probe in flight has an owner. -/
lemma dropStaleOwners_get {d : Desk} {n : BreakerName} {h : OrderHash}
    (hn : (dropStaleOwners d).probeOwners.get n = some h) :
    (d.breakers.byName n).probeInflight = true := by
  by_contra hfree
  have hsome : ∀ (ns : List BreakerName) (o : Dict BreakerName OrderHash), n ∈ ns →
      (ns.foldl (fun owners m => if (d.breakers.byName m).probeInflight then owners
        else owners.erase m) o).get n = none := by
    intro ns
    induction ns using List.reverseRecOn with
    | nil => simp
    | append_singleton ns m ih =>
      intro o hmem
      rw [List.foldl_append, List.foldl_cons, List.foldl_nil]
      rcases List.mem_append.mp hmem with hold | hlast
      · split_ifs
        · exact ih o hold
        · rw [Dict.get_erase]
          split_ifs
          · rfl
          · exact ih o hold
      · obtain rfl := List.mem_singleton.mp hlast
        rw [if_neg hfree, Dict.get_erase_self]
  have hnone := hsome breakerNames d.probeOwners (mem_breakerNames n)
  rw [show (dropStaleOwners d).probeOwners.get n = none from hnone] at hn
  cases hn

/-- A probe of a half-open breaker is in flight and belongs to the order. -/
def Desk.Probing (d : Desk) (h : OrderHash) : Prop :=
  ∃ n, (d.breakers.byName n).halfOpen = true ∧ (d.breakers.byName n).probeInflight = true ∧
    d.probeOwners.get n = some h

/-- What the snapshot of the probes shows of a desk whose breakers are settled. -/
structure ShownProbes (h : OrderHash) (v : ProbeView) (d : Desk) : Prop where
  none : v.halfAll = [] → ∀ n, (d.breakers.byName n).halfOpen = false
  owned : v.owned ≠ [] → d.Probing h
  avail : ∀ n ∈ v.halfAvail, (d.breakers.byName n).halfOpen = true ∧
    (d.breakers.byName n).probeInflight = false

lemma ShownProbes.same {h : OrderHash} {v : ProbeView} {d d' : Desk} (hv : ShownProbes h v d)
    (hb : d'.breakers = d.breakers) (ho : d'.probeOwners = d.probeOwners) : ShownProbes h v d' where
  none := by
    rw [hb]
    exact hv.none
  owned := by
    unfold Desk.Probing
    rw [hb, ho]
    exact hv.owned
  avail := by
    rw [hb]
    exact hv.avail

lemma snapshotProbes_shown {h : OrderHash} {v : ProbeView} {d d' : Desk}
    (hs : ∀ n, Breaker.Settled (breakerConfig n) d.now (d.breakers.byName n))
    (hr : snapshotProbes h d = (.ok v, d')) :
    ShownProbes h v d' ∧ d'.breakers = d.breakers ∧ d'.store = d.store ∧ d'.now = d.now ∧
      d'.killswitch = d.killswitch := by
  obtain ⟨hv, rfl⟩ := Prod.mk.inj hr
  obtain rfl := Except.ok.inj hv
  have hb : (dropStaleOwners d).breakers.expireAll (dropStaleOwners d).now = d.breakers :=
    BreakerSet.expireAll_eq hs
  refine ⟨⟨?_, ?_, ?_⟩, hb, rfl, rfl, rfl⟩
  · intro hnil n
    have hn : n ∉ breakerNames.filter fun n => ((dropStaleOwners d).breakers.byName n).halfOpen :=
      List.eq_nil_iff_forall_not_mem.mp hnil n
    rw [List.mem_filter, not_and] at hn
    show ((BreakerSet.expireAll _ _).byName n).halfOpen = false
    rw [hb]
    exact Bool.eq_false_iff.mpr (hn (mem_breakerNames n))
  · intro hne
    obtain ⟨n, hn⟩ := List.exists_mem_of_ne_nil _ hne
    rw [List.mem_filter, List.mem_filter] at hn
    have howner := of_decide_eq_true hn.2
    refine ⟨n, ?_, ?_, howner⟩
    · show ((BreakerSet.expireAll _ _).byName n).halfOpen = true
      rw [hb]
      exact hn.1.2
    · show ((BreakerSet.expireAll _ _).byName n).probeInflight = true
      rw [hb]
      exact dropStaleOwners_get howner
  · intro n hn
    show ((BreakerSet.expireAll _ _).byName n).halfOpen = true ∧
      ((BreakerSet.expireAll _ _).byName n).probeInflight = false
    rw [hb]
    exact BreakerSet.mem_halfOpenBreakers hs hn

/-- An admitted probe is in flight, and belongs to the order. -/
lemma admitOwned_ok {n : BreakerName} {h : OrderHash} {d d' : Desk}
    (hs : Breaker.Settled (breakerConfig n) d.now (d.breakers.byName n))
    (hr : admitOwned n h d = (.ok true, d')) :
    (d.breakers.byName n).halfOpen = true ∧
      d' = { d with
        breakers := d.breakers.update { d.breakers.byName n with probeInflight := true } n
        probeOwners := d.probeOwners.set n h } := by
  unfold admitOwned BreakerSet.admitProbe Breaker.admitProbe at hr
  rw [Breaker.expire_eq hs] at hr
  dsimp only at hr
  by_cases hopen : (d.breakers.byName n).isOpen (breakerConfig n) d.now = true
  · rw [if_pos hopen] at hr
    cases (Prod.mk.inj hr).1
  · rw [if_neg hopen] at hr
    by_cases hfree : (!(d.breakers.byName n).halfOpen || (d.breakers.byName n).probeInflight) = true
    · rw [if_pos hfree] at hr
      cases (Prod.mk.inj hr).1
    · rw [if_neg hfree] at hr
      rw [Bool.or_eq_true, not_or, Bool.not_eq_true, Bool.not_eq_false'] at hfree
      exact ⟨hfree.1, (Prod.mk.inj hr).2.symm⟩

/-- A buy that gets past the probes holds one, if any breaker is half-open. -/
lemma claimProbe_ok {h : OrderHash} {v : ProbeView} {s s' : Desk × StepCtx}
    (hb : s.2.isBuy = true) (he : s.2.isExitSell = false)
    (hs : ∀ n, Breaker.Settled (breakerConfig n) s.1.now (s.1.breakers.byName n))
    (hv : ShownProbes h v s.1) (hr : claimProbe h v s = (.ok (), s')) :
    ((∀ n, (s'.1.breakers.byName n).halfOpen = false) ∨ s'.1.Probing h) ∧
      s'.1.store = s.1.store ∧ s'.1.killswitch = s.1.killswitch ∧ s'.1.now = s.1.now ∧
      ∀ n, (s'.1.breakers.byName n).openedAt = (s.1.breakers.byName n).openedAt := by
  unfold claimProbe at hr
  rw [Prog.bind_run_ok (ctx_run s)] at hr
  simp only [hb, he, Bool.not_false, Bool.true_and] at hr
  split_ifs at hr with hnil hown
  · obtain ⟨-, rfl⟩ := Prod.mk.inj hr
    exact ⟨.inl (hv.none (by simpa using hnil)), rfl, rfl, rfl, fun _ => rfl⟩
  · obtain ⟨-, rfl⟩ := Prod.mk.inj hr
    exact ⟨.inr (hv.owned hown), rfl, rfl, rfl, fun _ => rfl⟩
  · rcases ha : v.halfAvail with - | ⟨n, ns⟩
    · rw [ha] at hr
      cases hr
    · rw [ha] at hr
      obtain ⟨hhalf, hfree⟩ := hv.avail n (by rw [ha]; simp)
      obtain ⟨admitted, s₁, hadmit, hrest⟩ := Prog.bind_ok_iff.mp hr
      split_ifs at hrest with htrue
      · subst htrue
        obtain ⟨-, rfl⟩ := Prod.mk.inj hrest
        obtain ⟨-, hdesk⟩ := admitOwned_ok (hs n) (onDesk_back hadmit).1
        refine ⟨.inr ⟨n, ?_, ?_, ?_⟩, ?_, ?_, ?_, fun m => ?_⟩
        · show (s₁.1.breakers.byName n).halfOpen = true
          rw [hdesk]
          simpa using hhalf
        · show (s₁.1.breakers.byName n).probeInflight = true
          rw [hdesk]
          simp
        · show s₁.1.probeOwners.get n = some h
          rw [hdesk, Dict.get_set_self]
        · show s₁.1.store = s.1.store
          rw [hdesk]
        · show s₁.1.killswitch = s.1.killswitch
          rw [hdesk]
        · show s₁.1.now = s.1.now
          rw [hdesk]
        · show (s₁.1.breakers.byName m).openedAt = _
          rw [hdesk]
          dsimp only
          rw [BreakerSet.byName_update]
          split_ifs with hm
          · rw [hm]
          · rfl
      · cases hrest

/-! ### A passed buy -/

/-- Nothing stops the order: no halt and no kill switch, and no breaker is open; if one is
half-open, a probe is the order's. -/
structure Unstopped (cfg : DeskConfig) (h : OrderHash) (d : Desk) : Prop where
  halted : (d.fold cfg).halt.active = false
  killed : (d.fold cfg).killSwitch.active = false
  idle : (d.killswitch.poll d.store.read).1.active = false
  closed : d.breakers.openBreakers d.now = []
  probed : (∀ n, (d.breakers.byName n).halfOpen = false) ∨ d.Probing h

lemma breakerRow_views {st st' : LedgerStore} (h : st.Grows BreakerSet.BreakerRow st')
    (s : LedgerState) :
    (replay s st'.read).halt = (replay s st.read).halt ∧
      KillSwitch.latestSet st'.read = KillSwitch.latestSet st.read := by
  refine h.invariant (I := fun x => (replay s x.read).halt = (replay s st.read).halt ∧
    KillSwitch.latestSet x.read = KillSwitch.latestSet st.read) (fun _ _ h => h) ?_ ⟨rfl, rfl⟩
  rintro st rows ⟨hhalt, hkill⟩ - hb
  cases hb with
  | trip n ts source =>
    rw [LedgerStore.read_commit, replay_append, ← hhalt, ← hkill]
    exact ⟨rfl, KillSwitch.latestSet_append_singleton _ _⟩
  | reset n ts source probeOk =>
    rw [LedgerStore.read_commit, replay_append, ← hhalt, ← hkill]
    exact ⟨rfl, KillSwitch.latestSet_append_singleton _ _⟩

/-- A poll that finds nothing engaged wrote nothing. -/
lemma pollKill_idle {source : EventSource} {d d' : Desk} (h : pollKill source d = (.ok none, d')) :
    d'.store = d.store ∧ d'.breakers = d.breakers ∧ d'.now = d.now ∧
      d'.probeOwners = d.probeOwners ∧ ¬ d'.killswitch.Engaged d'.store.read := by
  unfold pollKill at h
  rw [Prog.bind_run_ok (Prog.read_run _ _)] at h
  obtain ⟨⟨⟩, d₁, hobs, h⟩ := Prog.bind_ok_iff.mp h
  change ((.ok (if (d₁.killswitch.poll d₁.store.read).1.active = true then
      some (d₁.killswitch.poll d₁.store.read).1 else none) : Except Exc (Option KillState)),
    { d₁ with killswitch := (d₁.killswitch.poll d₁.store.read).2 }) = (.ok none, d') at h
  obtain ⟨hnone, rfl⟩ := Prod.mk.inj h
  have hidle : (d₁.killswitch.poll d₁.store.read).1.active = false := by
    by_contra ha
    rw [if_pos (by simpa using ha)] at hnone
    cases hnone
  have hrun : KillSwitch.observe d.now source (d.killswitch, d.store) =
      (.ok (), d₁.killswitch, d₁.store) ∧ d₁ = { d with
        killswitch := d₁.killswitch, store := d₁.store } := by
    unfold Desk.onKill Prog.on at hobs
    obtain ⟨hok, rfl⟩ := Prod.mk.inj hobs
    exact ⟨Prod.ext hok rfl, rfl⟩
  obtain ⟨hst, hnot⟩ := KillSwitch.observe_idle hrun.1 hidle
  have hb : d₁.breakers = d.breakers := by rw [hrun.2]
  have hn : d₁.now = d.now := by rw [hrun.2]
  have ho : d₁.probeOwners = d.probeOwners := by rw [hrun.2]
  refine ⟨hst, hb, hn, ho, ?_⟩
  dsimp only
  rw [KillSwitch.poll_engaged, hst]
  exact hnot

/-- A context made while nothing is engaged. -/
lemma newCtx_idle {cfg : DeskConfig} {call : CheckCall} {state : LedgerState} {equity : ℤ}
    {probes : ProbeView} {d d' : Desk} {c : StepCtx}
    (h : newCtx cfg call state equity probes d = (.ok c, d')) (hc : c.kill = none)
    (hs : ∀ n, Breaker.Settled (breakerConfig n) d.now (d.breakers.byName n)) :
    d'.store = d.store ∧ d'.breakers = d.breakers ∧ d'.now = d.now ∧
      d'.probeOwners = d.probeOwners ∧ ¬ d'.killswitch.Engaged d'.store.read ∧
      c.openBreakers = d.breakers.openBreakers d.now := by
  obtain ⟨kill, d₁, hpoll, h₁⟩ := Prog.bind_ok_iff.mp h
  obtain ⟨hctx, rfl⟩ := Prod.mk.inj h₁
  obtain rfl := Except.ok.inj hctx
  obtain rfl : kill = none := hc
  obtain ⟨hst, hb, hn, ho, hnot⟩ := pollKill_idle hpoll
  have hexp : d₁.breakers.expireAll d₁.now = d.breakers := by
    rw [hb, hn]
    exact BreakerSet.expireAll_eq hs
  exact ⟨hst, hexp, hn, ho, hnot, by rw [← hb, ← hn]⟩

/-- A breaker step that a buy passes found no breaker open. -/
lemma breakerStep_closed {s s' : Desk × StepCtx} (h : stepBreakerOpen s = (.ok (), s')) :
    s.2.openBreakers = [] := by
  unfold stepBreakerOpen Walk.mark Walk.update at h
  rw [Prog.bind_run_ok (Prog.modify_run _ _), Prog.bind_run_ok (ctx_run _)] at h
  obtain ⟨degraded, s₁, -, h⟩ := Prog.bind_ok_iff.mp h
  split_ifs at h
  · obtain ⟨⟨⟩, s₂, -, h⟩ := Prog.bind_ok_iff.mp h
    cases h
  · have hfail := (Prog.raiseIf_ok_iff.mp h).1
    push Not at hfail
    exact hfail.1

/-- A walk that a buy passes began with nothing engaged, no halt, and no breaker open. -/
lemma walkSteps_clear {cfg : DeskConfig} {s s' : Desk × StepCtx}
    (h : walkSteps cfg stepIds s = (.ok (), s')) (hb : s.2.isBuy = true) :
    s.2.kill = none ∧ s.2.state.halt.active = false ∧ s.2.openBreakers = [] := by
  have hbuy : s.2.call.order.side = .buy := by simpa [StepCtx.isBuy] using hb
  have hrun : ∀ x, recheckStep x = true → ∃ s₁ s₂, runStep cfg x s₁ = (.ok (), s₂) ∧
      Onward s s₁ ∧ (.drawdownHalt ∉ stepsBefore x → s₁.2.state = s.2.state) := by
    intro x hx
    rw [stepIds_split x] at h
    obtain ⟨s₁, s₂, hbefore, hstep, -⟩ := walkSteps_split h
    have hon := (walkSteps_onward cfg (stepsBefore x)).run hbefore
    rw [isExitSell_buy hbuy hon.call, skipStep_buy (.inr hx),
      if_neg (by simp)] at hstep
    exact ⟨s₁, s₂, hstep, hon, fun hd => (walkSteps_state cfg hd).run hbefore⟩
  obtain ⟨s₁, s₂, hkill, hon₁, -⟩ := hrun .killSwitch rfl
  obtain ⟨s₃, s₄, hhalt, -, hstate⟩ := hrun .halted rfl
  obtain ⟨s₅, s₆, hopen, hon₅, -⟩ := hrun .breakerOpen rfl
  refine ⟨?_, ?_, ?_⟩
  · have hnone : ¬ s₁.2.kill.isSome = true := failIf_step hkill
    rw [← hon₁.kill]
    exact Option.not_isSome_iff_eq_none.mp hnone
  · have hno : ¬ s₃.2.state.halt.active = true := failIf_step hhalt
    rw [← hstate (by decide)]
    exact Bool.eq_false_iff.mpr hno
  · rw [← hon₅.openBreakers]
    exact breakerStep_closed hopen

/-- What the walk of a passed buy begins with: books as they were, settled breakers of which none
is open, and no kill switch engaged. -/
structure ClearStart (cfg : DeskConfig) (call : CheckCall) (d : Desk) (probes : ProbeView)
    (s : Desk × StepCtx) : Prop where
  call_eq : s.2.call = call
  state : s.2.state = d.fold cfg
  equity : s.2.equity = equityForHalts cfg (d.fold cfg)
  rows : d.store.Grows BreakerSet.BreakerRow s.1.store
  now : s.1.now = d.now
  settled : ∀ n, Breaker.Settled (breakerConfig n) s.1.now (s.1.breakers.byName n)
  closed : ∀ n, (s.1.breakers.byName n).openedAt = none
  shown : ShownProbes (orderHashFor call.order) probes s.1
  idle : ¬ s.1.killswitch.Engaged s.1.store.read
  halted : (d.fold cfg).halt.active = false

/-- A passed buy's evaluation is a clear start, a walk to its end, and a claim of the probes. -/
lemma evaluate_clear {cfg : DeskConfig} {call : CheckCall} {d d' : Desk} {dec : RiskDecision}
    (h : evaluate cfg call d = (.ok dec, d')) (hp : dec.passed = true)
    (hb : call.order.side = .buy) :
    ∃ probes s s₁ c', ClearStart cfg call d probes s ∧ walkSteps cfg stepIds s = (.ok (), s₁) ∧
      claimProbe (orderHashFor call.order) probes s₁ = (.ok (), d', c') := by
  unfold evaluate at h
  rw [Prog.bind_run_ok (Prog.read_run _ _), Prog.bind_run_ok (Prog.modify_run _ _),
    Prog.bind_run_ok (Prog.read_run _ _)] at h
  obtain ⟨⟨⟩, d₁, hrefresh, h⟩ := Prog.bind_ok_iff.mp h
  obtain ⟨probes, d₂, hsnap, h⟩ := Prog.bind_ok_iff.mp h
  obtain ⟨c, d₃, hctx, h⟩ := Prog.bind_ok_iff.mp h
  obtain ⟨c', hwalk, rfl⟩ := concludeWalk_passed h hp
  obtain ⟨⟨⟩, s₃, hsteps, hrest⟩ := Prog.bind_ok_iff.mp hwalk
  obtain ⟨⟨⟩, s₄, hhold, hclaim⟩ := Prog.bind_ok_iff.mp hrest
  obtain rfl := confirmHolding_run hhold
  -- the refresh writes rows of the breakers and leaves them settled
  have hbound : BreakerSet.refresh d.now d.now call.source (equityForHalts cfg (d.fold cfg))
      (d.breakers.syncFromLedger d.now d.store.read, d.store) =
        (.ok (), d₁.breakers, d₁.store) ∧ d₁.now = d.now := by
    unfold Desk.onBreakers Prog.on at hrefresh
    obtain ⟨hok, rfl⟩ := Prod.mk.inj hrefresh
    exact ⟨Prod.ext hok rfl, rfl⟩
  have hset₁ : ∀ n, Breaker.Settled (breakerConfig n) d₁.now (d₁.breakers.byName n) := by
    rw [BreakerSet.refresh_ok hbound.1, hbound.2]
    exact BreakerSet.refreshed_settled _ _ _ _
  obtain ⟨hshown, hb₂, hst₂, hn₂, -⟩ := snapshotProbes_shown hset₁ hsnap
  have hset₂ : ∀ n, Breaker.Settled (breakerConfig n) d₂.now (d₂.breakers.byName n) := by
    rw [hb₂, hn₂]
    exact hset₁
  obtain ⟨hcall, hstate, hequity, -⟩ := newCtx_ok hctx
  obtain ⟨hkill, hhalt, hopen⟩ := walkSteps_clear hsteps (isBuy_of hb hcall)
  obtain ⟨hst₃, hb₃, hn₃, ho₃, hidle, hnames⟩ := newCtx_idle hctx hkill hset₂
  rw [hnames, BreakerSet.openBreakers_settled hset₂] at hopen
  refine ⟨probes, (d₃, c), s₄, c', ?_, hsteps, hclaim⟩
  refine ⟨hcall, hstate, hequity, ?_, (hn₃.trans hn₂).trans hbound.2, ?_, ?_, ?_, hidle, ?_⟩
  · rw [hst₃, hst₂]
    exact (BreakerSet.refresh_written _ _ _ _).run hbound.1
  · rw [hb₃, hn₃]
    exact hset₂
  · rw [hb₃]
    exact hopen
  · exact hshown.same hb₃ ho₃
  · rw [← hstate]
    exact hhalt

/-- **A buy that passes** wrote rows of the breakers alone, and nothing stops it where its
evaluation returns. -/
theorem passed_unstopped {cfg : DeskConfig} {call : CheckCall} {d d' : Desk} {dec : RiskDecision}
    (h : evaluate cfg call d = (.ok dec, d')) (hp : dec.passed = true)
    (hb : call.order.side = .buy) :
    d.store.Grows BreakerSet.BreakerRow d'.store ∧ Unstopped cfg (orderHashFor call.order) d' := by
  obtain ⟨probes, s, s₁, c', hstart, hsteps, hclaim⟩ := evaluate_clear h hp hb
  have hstill : s.1.Still s₁.1 := walkSteps_passed hsteps (isBuy_of hb hstart.call_eq) hstart.state
    hstart.equity (hstart.rows.mono fun _ _ => BreakerSet.BreakerRow.engine) hstart.now
  have hcall₁ : s₁.2.call = call :=
    ((walkSteps_onward cfg stepIds).run hsteps).call.trans hstart.call_eq
  obtain ⟨hprobe, hst', hk', hn', ho'⟩ := claimProbe_ok (isBuy_of hb hcall₁)
    (isExitSell_buy hb hcall₁) (by rw [hstill.breakers, hstill.now]; exact hstart.settled)
    (hstart.shown.same hstill.breakers hstill.owners) hclaim
  dsimp only at hprobe hst' hk' hn' ho'
  have hrows : d.store.Grows BreakerSet.BreakerRow d'.store := by
    rw [hst']
    exact hstart.rows.trans (hstill.store.mono fun _ _ hf => hf.elim)
  have hnow : d'.now = s.1.now := hn'.trans hstill.now
  have hfold : d'.fold cfg = replay (initialState
      (d.store.initialEquity.getD cfg.budget.paperEquityLamports) (utcDay d.now))
        d'.store.read := by
    unfold Desk.fold
    rw [hrows.initialEquity_eq, hnow, hstart.now]
  have hnot : ¬ d'.killswitch.Engaged d'.store.read := by
    rw [hk', hst', hstill.killswitch, hstill.read]
    exact hstart.idle
  have hopen : ∀ n, (d'.breakers.byName n).openedAt = none := by
    intro n
    rw [ho' n, hstill.breakers]
    exact hstart.closed n
  refine ⟨hrows, ?_, ?_, ?_, ?_, hprobe⟩
  · rw [hfold, (breakerRow_views hrows _).1]
    exact hstart.halted
  · rw [hfold, KillSwitch.replay_killSwitch]
    by_contra hset
    exact hnot (.inr (.inr (.inr (eq_true_of_ne_false hset))))
  · by_contra hactive
    exact hnot ((KillSwitch.poll_active_iff _ _).mp (eq_true_of_ne_false hactive))
  · rw [BreakerSet.openBreakers_settled fun n t ht => by rw [hopen n] at ht; cases ht]
    exact hopen

end PumpGrok
