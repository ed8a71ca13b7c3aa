import PumpGrok.Desk.Books

/-!
KILL verdicts on a mint: written as the text of a journal note and read back from the notes by a
pattern. The reader recovers the mint when it is one word and the reason has no line break inside.
-/

namespace PumpGrok

open Desk

/-! ### The text -/

def verdictText (mint : Mint) (reason : Text) : Text :=
  "RISK verdict=KILL mint=".toList ++ (mint ++ " reason=".toList ++ reason)

/-- The mint is one word, and the reason has no line feed before its last character. -/
structure Legible (mint : Mint) (reason : Text) : Prop where
  mint_ne : mint ≠ []
  word : ∀ c ∈ mint, PyText.isSpace c = false
  line : '\n' ∉ reason.dropLast

lemma dropPrefix_append (p t : List Char) : PyText.dropPrefix p (p ++ t) = some t := by
  simp [PyText.dropPrefix]

/-- No line feed, or a single one at the end. -/
lemma line_iff (reason : Text) :
    ('\n' ∉ reason ∨ '\n' ∉ reason.dropLast ∧ reason.getLast? = some '\n') ↔
      '\n' ∉ reason.dropLast := by
  constructor
  · rintro (h | h)
    · exact fun hmem => h (List.dropLast_subset _ hmem)
    · exact h.1
  · intro h
    rcases List.eq_nil_or_concat reason with rfl | ⟨t, c, rfl⟩
    · exact .inl (by simp)
    · rw [List.concat_eq_append] at h ⊢
      rw [List.dropLast_concat] at h
      by_cases hc : c = '\n'
      · exact .inr ⟨by rwa [List.dropLast_concat], by simp [hc]⟩
      · refine .inl fun hmem => ?_
        rcases List.mem_append.mp hmem with ht | hs
        · exact h ht
        · exact hc (List.mem_singleton.mp hs).symm

/-- A word and what follows it. -/
lemma takeWord_append {w t : List Char} (hw : ∀ c ∈ w, PyText.isSpace c = false)
    (ht : ∀ c ∈ t.head?, PyText.isSpace c = true) : PyText.takeWord (w ++ t) = (w, t) := by
  have hw' : ∀ c ∈ w, (!PyText.isSpace c) = true := fun c hc => by rw [hw c hc]; rfl
  rw [PyText.takeWord, List.span_eq_takeWhile_dropWhile, List.takeWhile_append_of_pos hw',
    List.dropWhile_append_of_pos hw']
  rcases t with - | ⟨c, t⟩
  · simp
  · have hc := ht c rfl
    simp [hc]

/-- The word a text starts with has no space. -/
lemma takeWord_word (t : List Char) : ∀ c ∈ (PyText.takeWord t).1, PyText.isSpace c = false := by
  intro c hc
  rw [PyText.takeWord, List.span_eq_takeWhile_dropWhile] at hc
  simpa using List.mem_takeWhile_imp hc

/-- A mint that is read is a word. -/
lemma killVerdictMint_word {text : Text} {m : Mint} (h : killVerdictMint text = some m) :
    m ≠ [] ∧ ∀ c ∈ m, PyText.isSpace c = false := by
  unfold killVerdictMint at h
  obtain ⟨rest, -, h⟩ := Option.bind_eq_some_iff.mp h
  have hm : (PyText.takeWord rest).1 ≠ [] ∧ (PyText.takeWord rest).1 = m := by
    dsimp only at h
    split_ifs at h with hw
    · exact ⟨hw, Option.some.inj h⟩
    · obtain ⟨more, -, h⟩ := Option.bind_eq_some_iff.mp h
      obtain ⟨reason, -, h⟩ := Option.bind_eq_some_iff.mp h
      split_ifs at h
      exact ⟨hw, Option.some.inj h⟩
  obtain ⟨hw, rfl⟩ := hm
  exact ⟨hw, takeWord_word rest⟩

/-- **What the pattern reads.** It recovers the mint exactly when mint and reason are legible. -/
lemma killVerdictMint_text (mint : Mint) (reason : Text) :
    killVerdictMint (verdictText mint reason) = some mint ↔ Legible mint reason := by
  by_cases hword : mint ≠ [] ∧ ∀ c ∈ mint, PyText.isSpace c = false
  · have hrest : PyText.dropPrefix "RISK verdict=KILL mint=".toList (verdictText mint reason) =
        some (mint ++ " reason=".toList ++ reason) := dropPrefix_append _ _
    have hw : PyText.takeWord (mint ++ " reason=".toList ++ reason) =
        (mint, " reason=".toList ++ reason) := by
      rw [List.append_assoc]
      exact takeWord_append hword.2 fun c hc => by
        obtain rfl : ' ' = c := by simpa using hc
        rfl
    have hspaces : PyText.dropSpaces (" reason=".toList ++ reason) =
        some ("reason=".toList ++ reason) := by
      simp [PyText.dropSpaces, PyText.lstrip, PyText.isSpace]
    unfold killVerdictMint
    rw [hrest]
    simp only [Option.bind_eq_bind, Option.bind_some, hw, hspaces, dropPrefix_append, line_iff]
    rw [if_neg hword.1, if_neg (by simp)]
    constructor
    · intro h
      split_ifs at h with hline
      exact ⟨hword.1, hword.2, hline⟩
    · intro h
      rw [if_pos h.line]
  · refine ⟨fun h => absurd (killVerdictMint_word h) hword, fun h => ?_⟩
    exact absurd ⟨h.mint_ne, h.word⟩ hword

/-! ### The record -/

def verdictRow (mint : Mint) (reason : Text) (ts : ℤ) (source : EventSource) : Row where
  ts := ts
  source := source
  key := .killVerdict mint (utcDay ts)
  payload := .journalNote { seat := .risk, isVerdict := true, text := verdictText mint reason }

/-- Record a KILL verdict on a mint; later buys for all seats refuse. -/
def recordKillVerdict (mint : Mint) (reason : Text) (source : EventSource) : Prog Desk Exc Event :=
  fun d => Desk.onStore (LedgerStore.append (verdictRow mint reason d.now source)) d

variable {cfg : DeskConfig} {d d' : Desk} {mint m : Mint} {reason : Text} {source : EventSource}

lemma killedMints_append (cfg : DeskConfig) (es es' : List Event) :
    killedMints cfg (es ++ es') = killedMints cfg es ++ killedMints cfg es' := by
  unfold killedMints
  split_ifs <;> simp

lemma recordKillVerdict_ok_iff {e : Event} :
    recordKillVerdict mint reason source d = (.ok e, d') ↔
      d.store.inconsistent = false ∧ d.store.byKey (.killVerdict mint (utcDay d.now)) = none ∧
        e = { verdictRow mint reason d.now source with seq := d.store.count + 1 } ∧
        d' = { d with store := d.store.commit [verdictRow mint reason d.now source] } := by
  unfold recordKillVerdict Desk.onStore Prog.on
  rcases ha : LedgerStore.append (verdictRow mint reason d.now source) d.store with ⟨x | e', st⟩
  · obtain ⟨rfl, hx⟩ := LedgerStore.append_error_iff.mp ha
    rw [LedgerStore.fresh_singleton] at hx
    refine ⟨fun h => (nomatch h), fun ⟨hc, hk, _⟩ => ?_⟩
    rcases hx with ⟨hi, -⟩ | ⟨-, hn, -⟩
    · rw [hc] at hi
      exact (nomatch hi)
    · exact absurd hk hn
  · obtain ⟨hc, hf, rfl, rfl⟩ := LedgerStore.append_ok_iff.mp ha
    have hkey : d.store.byKey (.killVerdict mint (utcDay d.now)) = none :=
      LedgerStore.fresh_singleton.mp hf
    simp [hc, hkey, @eq_comm _ e, @eq_comm _ d']

/-- The rows after a verdict. -/
lemma killedMints_verdict (hscan : cfg.scanKillVerdicts = true) (es more : List Event) {e : Event}
    (he : e.payload = (verdictRow mint reason d.now source).payload) :
    m ∈ killedMints cfg (es ++ [e] ++ more) ↔
      killVerdictMint (verdictText mint reason) = some m ∨ m ∈ killedMints cfg (es ++ more) := by
  have hone : m ∈ killedMints cfg [e] ↔ killVerdictMint (verdictText mint reason) = some m := by
    simp [killedMints, hscan, he, verdictRow]
  simp only [killedMints_append, List.mem_append, hone]
  tauto

/-! ### The checks -/

/-- The engine's own rows are no verdicts. -/
lemma killedMints_grows {st st' : LedgerStore} (h : st.Grows EngineRow st') :
    killedMints cfg st'.read = killedMints cfg st.read := by
  refine h.invariant (I := fun st' => killedMints cfg st'.read = killedMints cfg st.read)
    (fun _ _ h => h) (fun st₁ rows h _ ha => ?_) rfl
  obtain ⟨row, hp, -, -, -⟩ := ha
  rw [LedgerStore.read_commit, killedMints_append, h]
  have hnone : killedMints cfg (LedgerStore.stamp (st₁.count + 1) [row]) = [] := by
    unfold killedMints
    split_ifs
    · cases hrow : row.payload <;> simp_all [LedgerStore.stamp, Payload.isEngine]
    · rfl
  rw [hnone, List.append_nil]

/-- The mints a check refuses to buy are those under a verdict; a sell looks at none. -/
lemma newCtx_killed {call : CheckCall} {state : LedgerState} {equity : ℤ} {probes : ProbeView}
    {c : StepCtx} (h : newCtx cfg call state equity probes d = (.ok c, d')) :
    c.killed = if call.order.side = .buy then killedMints cfg d.store.read else [] := by
  obtain ⟨kill, d₁, hk, h₁⟩ := Prog.bind_ok_iff.mp h
  obtain ⟨rfl, -⟩ := (Prod.mk.inj h₁).imp_left Except.ok.inj
  have hgrows := ((pollKill_quietly call.source).run hk).store
  simp [killedMints_grows hgrows]

lemma walkSteps_killed (cfg : DeskConfig) (xs : List StepId) :
    Prog.Keeps (Prog.Same fun s : Desk × StepCtx => s.2.killed) (walkSteps cfg xs) := by
  refine walkSteps_keeps quietly_frame (fun _ _ _ _ => rfl) cfg xs fun x hx d c c' hm => ?_
  cases hm <;> rfl

/-- A breaker step that passes found no verdict on the mint. -/
lemma stepBreakerOpen_ok {s s' : Desk × StepCtx} (h : stepBreakerOpen s = (.ok (), s')) :
    s.2.order.mint ∉ s.2.killed := by
  unfold stepBreakerOpen Walk.mark Walk.update at h
  rw [Prog.bind_run_ok (Prog.modify_run _ _), Prog.bind_run_ok (ctx_run _)] at h
  obtain ⟨degraded, s₁, -, h⟩ := Prog.bind_ok_iff.mp h
  split_ifs at h
  · obtain ⟨-, s₂, -, h⟩ := Prog.bind_ok_iff.mp h
    cases h
  · have hfail := (Prog.raiseIf_ok_iff.mp h).1
    push Not at hfail
    exact hfail.2.1

/-- **A killed mint is not bought.** -/
lemma passed_not_killed {call : CheckCall} {dec : RiskDecision}
    (h : evaluate cfg call d = (.ok dec, d')) (hp : dec.passed = true)
    (hb : call.order.side = .buy) : call.order.mint ∉ killedMints cfg d.store.read := by
  unfold evaluate at h
  rw [Prog.bind_run_ok (Prog.read_run _ _), Prog.bind_run_ok (Prog.modify_run _ _),
    Prog.bind_run_ok (Prog.read_run _ _)] at h
  obtain ⟨⟨⟩, d₂, h₂, h⟩ := Prog.bind_ok_iff.mp h
  obtain ⟨probes, d₃, h₃, h⟩ := Prog.bind_ok_iff.mp h
  obtain ⟨c, d₁, h₁, h⟩ := Prog.bind_ok_iff.mp h
  have hkilled : c.killed = killedMints cfg d.store.read := by
    rw [newCtx_killed h₁, if_pos hb,
      killedMints_grows ((snapshotProbes_quietly _).run h₃).store,
      killedMints_grows ((onBreakers_quietly (BreakerSet.refresh_grown _ _ _ _)).run h₂).store]
  have hcall := (newCtx_ok h₁).1
  obtain ⟨c', hwalk, -⟩ := concludeWalk_passed h hp
  obtain ⟨⟨⟩, s₃, hsteps, -⟩ := Prog.bind_ok_iff.mp hwalk
  rw [stepIds_split .breakerOpen] at hsteps
  obtain ⟨s₁, s₂, hbefore, hx, -⟩ := walkSteps_split hsteps
  have hcall₁ : s₁.2.call = call := ((walkSteps_onward cfg _).run hbefore).call.trans hcall
  have hk₁ : s₁.2.killed = c.killed := (walkSteps_killed cfg _).run hbefore
  rw [hcall₁, isExitSell_buy hb hcall₁, skipStep_buy (.inr rfl), if_neg (by simp)] at hx
  have hno := stepBreakerOpen_ok hx
  rwa [hk₁, hkilled, StepCtx.order, hcall₁] at hno

/-- A desk whose ledger extends a store, and whose cached decisions are evaluations. -/
structure Later (cfg : DeskConfig) (st : LedgerStore) (d : Desk) : Prop where
  txns : st.txns <+: d.store.txns
  solid : d.store.Solid
  cache : CacheOk cfg d

/-- The check of a killed mint answers with a refusal, evaluated or cached. -/
lemma check_killed {call : CheckCall} {dec : RiskDecision} (hc : CacheOk cfg d)
    (hs : d.store.Solid) (h : check cfg call d = (.ok dec, d')) (hb : call.order.side = .buy)
    (hk : call.order.mint ∈ killedMints cfg d.store.read) : dec.passed = false := by
  obtain ⟨call₀, d₀, hdec, htxns⟩ := check_decided hc hs h
  have hhash : orderHashFor call₀.order = orderHashFor call.order :=
    congrArg CacheKey.orderHash hdec.key
  have hside : call₀.order.side = .buy := (congrArg OrderHash.side hhash).trans hb
  have hmint : call₀.order.mint = call.order.mint := congrArg OrderHash.mint hhash
  have hread : (keyedDesk d₀).store.read = d.store.read := by
    show d₀.store.read = _
    rw [LedgerStore.read, htxns, LedgerStore.read]
  rw [← Bool.not_eq_true]
  intro hp
  refine passed_not_killed (Prod.ext hdec.decided rfl) hp hside ?_
  rwa [hmint, hread]

/-! ### In force -/

/-- **The verdict is in force**: it can be recorded again on its day, the mint is among those no
buy check passes, no other mint is for its sake, and a sell looks at none. -/
structure VerdictHolds (cfg : DeskConfig) (mint : Mint) (reason : Text) (source : EventSource)
    (d : Desk) : Prop where
  again : d.store.inconsistent = false →
    d.store.byKey (.killVerdict mint (utcDay d.now)) ≠ none →
    ∃ e d₁, recordKillVerdict mint reason source d = (.ok e, d₁)
  killed : ∀ e d₁, recordKillVerdict mint reason source d = (.ok e, d₁) →
    ∀ d', Later cfg d₁.store d' → mint ∈ killedMints cfg d'.store.read
  refused : ∀ e d₁, recordKillVerdict mint reason source d = (.ok e, d₁) →
    ∀ d', Later cfg d₁.store d' → ∀ call dec d'', call.order.side = .buy → call.order.mint = mint →
      check cfg call d' = (.ok dec, d'') → dec.passed = false
  others : ∀ e d₁, recordKillVerdict mint reason source d = (.ok e, d₁) →
    ∀ m more, m ≠ mint →
      (m ∈ killedMints cfg (d₁.store.read ++ more) ↔ m ∈ killedMints cfg (d.store.read ++ more))
  sells : ∀ d' call state equity probes c d'', call.order.side = .sell →
    newCtx cfg call state equity probes d' = (.ok c, d'') → c.killed = []

/-- The mint is under a verdict already, and so is the one the text names, if it names one. -/
def Already (cfg : DeskConfig) (mint : Mint) (reason : Text) (events : List Event) : Prop :=
  mint ∈ killedMints cfg events ∧
    ∀ m, killVerdictMint (verdictText mint reason) = some m → m ∈ killedMints cfg events

lemma sells_look_at_none (cfg : DeskConfig) (d' : Desk) (call : CheckCall) (state : LedgerState)
    (equity : ℤ) (probes : ProbeView) (c : StepCtx) (d'' : Desk) (hsell : call.order.side = .sell)
    (h : newCtx cfg call state equity probes d' = (.ok c, d'')) : c.killed = [] := by
  rw [newCtx_killed h, if_neg (by simp [hsell])]

/-- What the ledger shows of verdicts, once one is recorded. -/
structure Recorded (cfg : DeskConfig) (mint : Mint) (reason : Text) (d d₁ : Desk) : Prop where
  store : ∃ row, d₁.store = d.store.commit [row]
  killed : ∀ m more, m ∈ killedMints cfg (d₁.store.read ++ more) ↔
    cfg.scanKillVerdicts = true ∧ killVerdictMint (verdictText mint reason) = some m ∨
      m ∈ killedMints cfg (d.store.read ++ more)

lemma recorded {e : Event} {d₁ : Desk} (h : recordKillVerdict mint reason source d = (.ok e, d₁)) :
    Recorded cfg mint reason d d₁ := by
  obtain ⟨-, -, -, rfl⟩ := recordKillVerdict_ok_iff.mp h
  refine ⟨⟨_, rfl⟩, fun m more => ?_⟩
  rw [LedgerStore.read_commit]
  by_cases hscan : cfg.scanKillVerdicts = true
  · simp only [hscan, true_and]
    exact killedMints_verdict hscan d.store.read more rfl
  · simp [killedMints, hscan]

lemma Later.read {st : LedgerStore} (h : Later cfg st d) :
    ∃ more, d.store.read = st.read ++ more := by
  obtain ⟨ts, ht⟩ := h.txns
  exact ⟨ts.flatten, by rw [LedgerStore.read, LedgerStore.read, ← ht, List.flatten_append]⟩

/-- A verdict that was recorded holds when its text is read back or changes nothing. -/
lemma holds_of_recorded {e : Event} {d₁ : Desk}
    (h : recordKillVerdict mint reason source d = (.ok e, d₁)) (hs : d.store.Solid) :
    VerdictHolds cfg mint reason source d ↔
      cfg.scanKillVerdicts = true ∧ Legible mint reason ∨ Already cfg mint reason d.store.read := by
  have hrec : Recorded cfg mint reason d d₁ := recorded h
  have hnow := hrec.killed mint []
  rw [List.append_nil, List.append_nil, killVerdictMint_text] at hnow
  constructor
  · intro hv
    -- nothing after the row, and no decision cached
    have hlater : Later cfg d₁.store { d₁ with decisions := ∅ } := by
      refine ⟨List.prefix_refl _, ?_, fun k dec hk => (nomatch hk)⟩
      obtain ⟨row, hrow⟩ := hrec.store
      intro b hb
      rw [hrow, LedgerStore.txns_commit, List.mem_append, List.mem_singleton] at hb
      rcases hb with hb | rfl
      · exact hs b hb
      · simp [LedgerStore.stamp]
    have hk := hv.killed e d₁ h { d₁ with decisions := ∅ } hlater
    rcases hnow.mp hk with hl | hold
    · exact .inl hl
    · by_cases hl : cfg.scanKillVerdicts = true ∧ Legible mint reason
      · exact .inl hl
      refine .inr ⟨hold, fun m hm => ?_⟩
      have hscan : cfg.scanKillVerdicts = true := by
        by_contra hscan
        simp [killedMints, hscan] at hold
      have hne : m ≠ mint := by
        rintro rfl
        exact hl ⟨hscan, (killVerdictMint_text m reason).mp hm⟩
      have := (hrec.killed m []).mpr (.inl ⟨hscan, hm⟩)
      rw [hv.others e d₁ h m [] hne, List.append_nil] at this
      exact this
  · intro hcond
    have hkilled : ∀ d', Later cfg d₁.store d' → mint ∈ killedMints cfg d'.store.read := by
      intro d' hl
      obtain ⟨more, hmore⟩ := hl.read
      rw [hmore, killedMints_append, List.mem_append]
      exact .inl (hnow.mpr (hcond.imp_right And.left))
    refine ⟨fun _ _ => ⟨e, d₁, h⟩, ?_, ?_, ?_, sells_look_at_none cfg⟩
    all_goals
      intro e' d₂ h'
      obtain ⟨rfl, rfl⟩ := (Prod.mk.inj (h.symm.trans h')).imp_left Except.ok.inj
    · exact hkilled
    · rintro d' hl call dec d'' hb rfl hcheck
      exact check_killed hl.cache hl.solid hcheck hb (hkilled d' hl)
    · intro m more hne
      rw [hrec.killed]
      refine ⟨fun hm => ?_, .inr⟩
      rcases hm with ⟨-, hm⟩ | hm
      · rcases hcond with ⟨-, hl⟩ | hold
        · rw [(killVerdictMint_text mint reason).mpr hl] at hm
          exact absurd (Option.some.inj hm).symm hne
        · rw [killedMints_append, List.mem_append]
          exact .inl (hold.2 m hm)
      · exact hm

/-- **When a KILL verdict holds**: on an inconsistent ledger, which takes no row; or where the
mint has no verdict of the day yet, and its text is legible or changes nothing. -/
theorem verdict_holds_iff (cfg : DeskConfig) (mint : Mint) (reason : Text) (source : EventSource)
    (d : Desk) (hs : d.store.Solid) :
    VerdictHolds cfg mint reason source d ↔
      d.store.inconsistent = true ∨
        d.store.byKey (.killVerdict mint (utcDay d.now)) = none ∧
          (cfg.scanKillVerdicts = true ∧ Legible mint reason ∨
            Already cfg mint reason d.store.read) := by
  by_cases hc : d.store.inconsistent = true
  · have hno : ∀ e d₁, recordKillVerdict mint reason source d ≠ (.ok e, d₁) := by
      intro e d₁ he
      rw [(recordKillVerdict_ok_iff.mp he).1] at hc
      exact nomatch hc
    refine ⟨fun _ => .inl hc, fun _ => ⟨fun h => ?_, ?_, ?_, ?_, sells_look_at_none cfg⟩⟩
    · rw [hc] at h
      exact nomatch h
    all_goals exact fun e d₁ he => absurd he (hno e d₁)
  rw [Bool.not_eq_true] at hc
  by_cases hk : d.store.byKey (.killVerdict mint (utcDay d.now)) = none
  · rw [holds_of_recorded (recordKillVerdict_ok_iff.mpr ⟨hc, hk, rfl, rfl⟩) hs]
    simp [hc, hk]
  · refine ⟨fun h => ?_, fun h => ?_⟩
    · obtain ⟨e, d₁, he⟩ := h.again hc hk
      exact absurd (recordKillVerdict_ok_iff.mp he).2.1 hk
    · rcases h with h | h
      · rw [hc] at h
        exact nomatch h
      · exact absurd h.1 hk

/-! ### A line break -/

namespace Sys

/-- The sample desk, reading verdicts. -/
def verdictConfig : DeskConfig := { sampleConfig with scanKillVerdicts := true }

/-- The desk after a buy of another mint. -/
def verdictDesk : Sys :=
  Runs.after (step verdictConfig) sampleStart (sampleReserves :: samplePlace 0 (sampleBuy 'b' 1))

/-- A one-line verdict holds. -/
theorem verdict_one_line :
    verdictDesk.store.read ≠ [] ∧ VerdictHolds verdictConfig (sampleMint 'a')
      "rug evidence".toList .paper verdictDesk.world.desk := by
  have hbooks : verdictDesk.Books verdictConfig := books_after verdictConfig 0 10000000000 {} _
  have hfree : verdictDesk.world.desk.store.byKey
      (.killVerdict (sampleMint 'a') (utcDay verdictDesk.world.desk.now)) = none := by
    decide +kernel
  have hlegible : Legible (sampleMint 'a') "rug evidence".toList := by
    refine ⟨by decide, fun c hc => ?_, by decide⟩
    rw [List.eq_of_mem_replicate hc]
    decide
  exact ⟨by decide +kernel,
    (verdict_holds_iff _ _ _ _ _ hbooks.legal.solid).mpr (.inr ⟨hfree, .inl ⟨rfl, hlegible⟩⟩)⟩

/-- **A verdict whose reason has two lines does not block its mint.** -/
theorem verdict_two_lines :
    ¬ VerdictHolds verdictConfig (sampleMint 'a') "rug\nevidence".toList .paper
      sampleStart.world.desk := by
  obtain ⟨e, d₁, h⟩ : ∃ e d₁, recordKillVerdict (sampleMint 'a') "rug\nevidence".toList .paper
      sampleStart.world.desk = (.ok e, d₁) := ⟨_, _, rfl⟩
  rw [holds_of_recorded h fun _ hb => (nomatch hb)]
  rintro (⟨-, hl⟩ | ⟨hk, -⟩)
  · exact hl.line (by decide)
  · exact nomatch hk

/-! ### Runs of the desk -/

/-- The ledger of a desk only grows, and its decisions stay evaluations. -/
lemma Books.later {s : Sys} {cfg : DeskConfig} (h : s.Books cfg) (as : List Action) :
    Later cfg s.store (Runs.after (step cfg) s as).world.desk := by
  have hb : (Runs.after (step cfg) s as).Books cfg :=
    Runs.invariant (I := Books cfg) (fun s a h => (step_move cfg s a).books h) h as
  refine ⟨?_, hb.legal.solid, hb.cache⟩
  refine Runs.related (R := fun s s' : Sys => s.store.txns <+: s'.store.txns)
    (fun _ => List.prefix_refl _) (fun _ _ _ => List.IsPrefix.trans) (fun s a => ?_) s as
  obtain ⟨st, b, hg, hst⟩ := (step_move cfg s a).grows
  rw [hst]
  exact hg.txns_extends

/-- Recording a verdict is one of the outside appends of a desk. -/
lemma recordKillVerdict_step (cfg : DeskConfig) (s : Sys) (mint : Mint) (reason : Text)
    (source : EventSource) :
    s.withDesk (recordKillVerdict mint reason source s.world.desk).2 =
      s.step cfg (.append ⟨verdictRow mint reason s.world.desk.now source, rfl, rfl⟩) := rfl

/-- **A legible verdict blocks its mint for good**: whatever the desk does after it. -/
theorem killed_in_runs (cfg : DeskConfig) (now e₀ : ℤ) (killswitch : KillSwitch)
    (as bs : List Action) (mint : Mint) (reason : Text) (source : EventSource)
    (hscan : cfg.scanKillVerdicts = true) (hl : Legible mint reason) :
    let s := Runs.after (step cfg) (start now e₀ killswitch) as
    let s₁ := s.withDesk (recordKillVerdict mint reason source s.world.desk).2
    (recordKillVerdict mint reason source s.world.desk).1.isOk = true →
    ∀ call dec d'', call.order.side = .buy → call.order.mint = mint →
      check cfg call (Runs.after (step cfg) s₁ bs).world.desk = (.ok dec, d'') →
        dec.passed = false := by
  intro s s₁ hok call dec d'' hb hm hcheck
  have hs : s.Books cfg := books_after cfg now e₀ killswitch as
  have hs₁ : s₁.Books cfg := by
    have := (step_move cfg s
      (.append ⟨verdictRow mint reason s.world.desk.now source, rfl, rfl⟩)).books hs
    rwa [← recordKillVerdict_step] at this
  rcases hr : recordKillVerdict mint reason source s.world.desk with ⟨x | e, d₁⟩
  · rw [hr] at hok
    exact nomatch hok
  · have hstore : s₁.store = d₁.store := by
      show (recordKillVerdict mint reason source s.world.desk).2.store = _
      rw [hr]
    have hlater := hs₁.later bs
    rw [hstore] at hlater
    exact ((holds_of_recorded hr hs.legal.solid).mpr (.inl ⟨hscan, hl⟩)).refused e d₁ hr _ hlater
      call dec d'' hb hm hcheck

end Sys

end PumpGrok
