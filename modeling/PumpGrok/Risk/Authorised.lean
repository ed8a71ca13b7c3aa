import PumpGrok.Risk.DecisionCache
import PumpGrok.Risk.PassedWalk

/-!
What authorises an order. A passed check at its first stage has granted the order an approval: one
the engine made itself, or the record that the order names, valid, unconsumed and bound to it. The
rows an evaluation writes are never approvals, so the record still stands where the order is
written.
-/

namespace PumpGrok

/-! ### Reading approvals -/

lemma latestApproval_engine {es fs : List Event} (h : ∀ e ∈ fs, e.payload.isEngine = true)
    (id : ℕ) :
    latestApproval (es ++ fs) id = latestApproval es id := by
  unfold latestApproval
  rw [List.foldl_append]
  generalize es.foldl _ (none : Option ApprovalRecorded) = latest
  induction fs generalizing latest with
  | nil => rfl
  | cons e fs ih =>
    rw [List.foldl_cons, ih fun x hx => h x (List.mem_cons_of_mem _ hx)]
    have he := h e (by simp)
    cases hp : e.payload <;> simp_all [Payload.isEngine]

/-- The engine's own rows leave every approval as it was. -/
lemma approvals_engine {st st' : LedgerStore} (h : st.Grows EngineRow st') :
    approvals st'.read = approvals st.read := by
  obtain ⟨es, hes, hengine⟩ := engine_rows h
  ext1 id
  unfold approvals
  rw [hes, latestApproval_engine hengine]

lemma latestApproval_id {es : List Event} {id : ℕ} {p : ApprovalRecorded}
    (h : latestApproval es id = some p) : p.id = id := by
  unfold latestApproval at h
  induction es using List.reverseRecOn with
  | nil => cases h
  | append_singleton es e ih =>
    rw [List.foldl_append, List.foldl_cons, List.foldl_nil] at h
    split at h
    · split_ifs at h with hid
      · obtain rfl := Option.some.inj h
        exact hid
      · exact ih h
    · exact ih h

/-- An approval that is read is the valid record of its id, and is not consumed. -/
lemma approvals_some {es : List Event} {id : ℕ} {a : ApprovalRecord}
    (h : approvals es id = some a) : a.id = id ∧ a.valid = true ∧ a.consumed = false := by
  unfold approvals at h
  rcases hl : latestApproval es id with - | p
  · rw [hl] at h
    cases h
  · rw [hl] at h
    dsimp only at h
    split_ifs at h with hc hv
    obtain rfl := Option.some.inj h
    exact ⟨latestApproval_id hl, hv, rfl⟩

/-! ### What a passed check grants -/

/-- An approval that authorises an order on a ledger: none of a human's, or the record it names. -/
def Authorises (es : List Event) (order : OrderRequest) (a : ApprovalRecord) : Prop :=
  ApprovalRecord.isHumanKind a.kind = false ∨
    approvals es order.approvalId = some a ∧ a.matches order = true

/-- The engine signs no approval of a human kind. -/
lemma human_signed {a : ApprovalRecord} (hv : a.valid = true) (hself : a.approvedBy = .riskEngine) :
    ApprovalRecord.isHumanKind a.kind = false := by
  by_contra hk
  rw [Bool.not_eq_false] at hk
  simp [ApprovalRecord.valid, hk, hself] at hv

lemma newCtx_approvals {cfg : DeskConfig} {call : CheckCall} {state : LedgerState} {equity : ℤ}
    {probes : ProbeView} {d d' : Desk} {c : StepCtx}
    (h : newCtx cfg call state equity probes d = (.ok c, d')) :
    c.approvals = approvals d'.store.read := by
  obtain ⟨kill, d₁, -, h₁⟩ := Prog.bind_ok_iff.mp h
  obtain ⟨hc, rfl⟩ := Prod.mk.inj h₁
  obtain rfl := Except.ok.inj hc
  rfl

/-- The grant of a walk: the approval, its id, and the records they are looked up in. -/
def grantOf (s : Desk × StepCtx) :
    Option ApprovalRecord × Option ℕ × (ℕ → Option ApprovalRecord) :=
  (s.2.approval, s.2.approvalId, s.2.approvals)

/-- Only the approval step grants. -/
lemma walkSteps_grant (cfg : DeskConfig) {xs : List StepId} (h : .approvalMissing ∉ xs) :
    Prog.Keeps (Prog.Same grantOf) (walkSteps cfg xs) := by
  refine walkSteps_keeps quietly_frame (fun _ _ _ _ => rfl) cfg xs fun x hx d c c' hm => ?_
  cases hm with
  | grant => exact absurd hx h
  | _ => rfl

lemma claimProbe_grant (orderHash : OrderHash) (probes : ProbeView) :
    Prog.Keeps (Prog.Same grantOf) (claimProbe orderHash probes) :=
  claimProbe_keeps quietly_frame (fun _ _ _ _ => rfl) (fun _ _ => rfl) orderHash probes

section Steps

variable {cfg : DeskConfig} {s s' : Desk × StepCtx}

/-- The approval step that passes grants an approval it made, or one it read for this ticket. -/
lemma approvalStep_ok (h : runStep cfg .approvalMissing s = (.ok (), s')) :
    s'.2.call = s.2.call ∧ ∃ a, s'.2.approval = some a ∧ s'.2.approvalId = some a.id ∧
      (a.kind = .autonomousPaper ∨ s.2.approvals s.2.order.approvalId = some a) := by
  obtain ⟨⟨⟩, t, hmark, h⟩ := Prog.bind_ok_iff.mp (show stepApprovalMissing cfg s = _ from h)
  rw [Prog.bind_run_ok (ctx_run t)] at h
  have hcall : t.2.call = s.2.call := by rw [← (Prod.mk.inj hmark).2]
  have hread : t.2.approvals = s.2.approvals := by rw [← (Prod.mk.inj hmark).2]
  rw [← hcall, ← hread, show s.2.order = t.2.order from congrArg CheckCall.order hcall.symm]
  split_ifs at h with hself
  · obtain ⟨a, t₁, hmint, hgrant⟩ := Prog.bind_ok_iff.mp h
    obtain ⟨hmint, hctx⟩ := onDesk_back hmint
    obtain ⟨-, rfl⟩ := Prod.mk.inj hgrant
    have hsame : t₁.2.call = t.2.call := congrArg StepCtx.call hctx
    refine ⟨hsame, a, rfl, rfl, .inl ?_⟩
    obtain ⟨ha, -⟩ := Prod.mk.inj hmint
    obtain rfl := Except.ok.inj ha
    split_ifs <;> rfl
  · rcases ha : t.2.approvals t.2.order.approvalId with - | a
    · rw [ha] at h
      cases h
    · simp only [ha] at h
      split_ifs at h with hticket
      · cases h
      · obtain ⟨-, rfl⟩ := Prod.mk.inj h
        exact ⟨rfl, a, rfl, rfl, .inr rfl⟩

/-- The matching step lets through the engine's own approval, or one that binds the order. -/
lemma mismatchStep_ok (h : runStep cfg .approvalMismatch s = (.ok (), s')) :
    grantOf s' = grantOf s ∧ ∀ a, s.2.approval = some a →
      a.approvedBy = .riskEngine ∨ a.matches s.2.order = true := by
  have hkeeps : Prog.Same grantOf s s' := (runStep_keeps quietly_frame (fun _ _ _ _ => rfl)
    (fun d c c' hm => by cases hm; rfl) cfg).run h
  refine ⟨hkeeps, fun a ha => ?_⟩
  simp only [runStep, stepApprovalMismatch, Walk.mark, Walk.update] at h
  rw [Prog.bind_run_ok (Prog.modify_run _ _), Prog.bind_run_ok (ctx_run _)] at h
  simp only [ha] at h
  split_ifs at h with hself
  · exact .inl hself
  · have hnot := (Prog.raiseIf_ok_iff.mp h).1
    push Not at hnot
    exact .inr (by simpa [StepCtx.order] using hnot.2.2)

end Steps

/-- **What a passed check grants** at its first stage. -/
theorem passed_authorised {cfg : DeskConfig} {call : CheckCall} {d d' : Desk} {dec : RiskDecision}
    (h : evaluate cfg call d = (.ok dec, d')) (hp : dec.passed = true)
    (hst : call.stage = .accepted) :
    ∃ a, dec.approval = some a ∧ dec.approvalId = some a.id ∧
      Authorises d.store.read call.order a := by
  have hquiet : d.store.Grows EngineRow d'.store := ((evaluate_quietly cfg call).run h).store
  unfold evaluate at h
  rw [Prog.bind_run_ok (Prog.read_run _ _), Prog.bind_run_ok (Prog.modify_run _ _),
    Prog.bind_run_ok (Prog.read_run _ _)] at h
  obtain ⟨⟨⟩, d₁, hrefresh, h⟩ := Prog.bind_ok_iff.mp h
  obtain ⟨probes, d₂, hsnap, h⟩ := Prog.bind_ok_iff.mp h
  obtain ⟨c, d₃, hctx, h⟩ := Prog.bind_ok_iff.mp h
  obtain ⟨c', hwalk, rfl⟩ := concludeWalk_passed h hp
  obtain ⟨⟨⟩, s₃, hsteps, hrest⟩ := Prog.bind_ok_iff.mp hwalk
  obtain ⟨⟨⟩, s₄, hhold, hclaim⟩ := Prog.bind_ok_iff.mp hrest
  obtain rfl := confirmHolding_run hhold
  have hgrown : d.store.Grows EngineRow d₃.store := by
    have h₁ : d.store.Grows EngineRow d₁.store :=
      ((Desk.onBreakers_quietly (BreakerSet.refresh_grown _ _ _ _)).run hrefresh).store
    exact h₁.trans (((snapshotProbes_quietly _).run hsnap).store.trans
      ((newCtx_quietly _ _ _ _ _).run hctx).store)
  have happrovals : c.approvals = approvals d.store.read := by
    rw [newCtx_approvals hctx, approvals_engine hgrown]
  have hcall : c.call = call := (newCtx_ok hctx).1
  rw [stepIds_split .approvalMissing] at hsteps
  obtain ⟨s₁, s₂, hbefore, hmissing, hafter⟩ := walkSteps_split hsteps
  have hon := (walkSteps_onward cfg _).run hbefore
  have hgrant₁ : grantOf s₁ = grantOf (d₃, c) := (walkSteps_grant cfg (by decide)).run hbefore
  have hskip : ∀ x, exitSkipStep x = false → ∀ k : StepCtx, k.call = call →
      skipStep x k.call.stage k.isExitSell = false := by
    intro x hx k hk
    simp [skipStep, hk, hst, hx]
  rw [hskip _ rfl s₁.2 (hon.call.trans hcall), if_neg (by simp)] at hmissing
  obtain ⟨hcall₂, a, ha, haid, hsource⟩ := approvalStep_ok hmissing
  have hafter' : walkSteps cfg (.approvalMismatch :: stepsAfter .approvalMismatch) s₂ =
      (.ok (), s₄) := hafter
  obtain ⟨s₅, hmatch, hlast⟩ := walkSteps_cons hafter'
  rw [hskip _ rfl s₂.2 (hcall₂.trans (hon.call.trans hcall)), if_neg (by simp)] at hmatch
  obtain ⟨hsame, hbinds⟩ := mismatchStep_ok hmatch
  have hgrant₄ : grantOf s₄ = grantOf s₂ :=
    ((walkSteps_grant cfg (by decide)).run hlast).trans hsame
  have hgrant : grantOf (d', c') = grantOf s₂ := ((claimProbe_grant _ _).run hclaim).trans hgrant₄
  have horder : s₂.2.order = call.order := by
    rw [StepCtx.order, hcall₂, hon.call, hcall]
  have happ₁ : s₁.2.approvals = approvals d.store.read :=
    (congrArg (fun g => g.2.2) hgrant₁).trans happrovals
  refine ⟨a, ?_, ?_, ?_⟩
  · exact (congrArg (fun g => g.1) hgrant).trans ha
  · exact (congrArg (fun g => g.2.1) hgrant).trans haid
  · rcases hsource with hself | hread
    · exact .inl (by rw [hself]; rfl)
    · rw [happ₁, show s₁.2.order = call.order by rw [StepCtx.order, hon.call, hcall]] at hread
      rcases hbinds a ha with hself | hm
      · exact .inl (human_signed (approvals_some hread).2.1 hself)
      · exact .inr ⟨hread, horder ▸ hm⟩

/-! ### Orders of one hash -/

/-- What binds an order is in its hash. -/
lemma matches_congr {r r' : OrderRequest} (h : orderHashFor r = orderHashFor r')
    (a : ApprovalRecord) : a.matches r = a.matches r' := by
  simp only [orderHashFor, OrderHash.mk.injEq] at h
  obtain ⟨ht, hs, -, hm, hl, hu, hslip⟩ := h
  unfold ApprovalRecord.matches ApprovalRecord.sizeMatches
  rw [ht, hs, hm, hl, hu, hslip]

/-- **What a check grants**, evaluated now or cached. -/
theorem check_authorised {cfg : DeskConfig} {call : CheckCall} {d d' : Desk} {dec : RiskDecision}
    (hc : CacheOk cfg d) (hs : d.store.Solid) (h : check cfg call d = (.ok dec, d'))
    (hp : dec.passed = true) (hst : call.stage = .accepted) :
    ∃ a, dec.approval = some a ∧ dec.approvalId = some a.id ∧
      Authorises d'.store.read call.order a := by
  have hcons := check_consulted cfg call d
  rw [h] at hcons
  obtain ⟨call₀, d₀, hdec, htxns⟩ := check_decided hc hs h
  rcases he : evaluate cfg call₀ (keyedDesk d₀) with ⟨x, d₁⟩
  have hx := hdec.decided
  rw [he] at hx
  dsimp only at hx
  subst hx
  have hst₀ : call₀.stage = .accepted := (congrArg CacheKey.stage hdec.key).trans hst
  have hhash : orderHashFor call₀.order = orderHashFor call.order :=
    congrArg CacheKey.orderHash hdec.key
  have hid : call₀.order.approvalId = call.order.approvalId :=
    congrArg CacheKey.approvalId hdec.key
  obtain ⟨a, ha, haid, hauth⟩ := passed_authorised he hp hst₀
  refine ⟨a, ha, haid, hauth.imp_right fun ⟨hread, hm⟩ => ⟨?_, ?_⟩⟩
  · have hsame : (keyedDesk d₀).store.read = d.store.read := by
      show d₀.store.txns.flatten = d.store.txns.flatten
      rw [htxns]
    rw [approvals_engine hcons.store, ← hsame, ← hid]
    exact hread
  · rw [← matches_congr hhash]
    exact hm

end PumpGrok
