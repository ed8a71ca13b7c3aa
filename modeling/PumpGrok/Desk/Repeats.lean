import PumpGrok.Desk.FillGuards
import PumpGrok.Desk.Outcomes
import PumpGrok.Lib.Decimals

/-!
A repeated decision is answered from the ledger. The rows hold fractions and prices in decimals of
twenty-eight digits, and the status of a fill is read back from its fraction: the answer is the
first outcome, but for the status of a fill that lacks so little that its fraction is stored as one.
-/

namespace PumpGrok

/-! ### The ledger in decimals -/

/-- A quotient of two decimals. -/
def decimal (q : ℚ) : ℚ := Decimals.significant 28 q

def Fill.inDecimals (fill : Fill) : Fill :=
  { fill with
    filledFraction := decimal fill.filledFraction
    priceAvg := decimal fill.priceAvg }

def FillRecorded.inDecimals (p : FillRecorded) : FillRecorded :=
  { p with
    filledFraction := decimal p.filledFraction
    priceAvg := decimal p.priceAvg }

def Event.inDecimals (e : Event) : Event :=
  match e.payload with
  | .fillRecorded p => { e with payload := .fillRecorded p.inDecimals }
  | _ => e

/-- The answer to a repeated decision, from the rows as they are stored. -/
def repeatInDecimals (st : LedgerStore) (r : OrderRequest) : Option (Except Exc Fill) :=
  match st.byKey (.execPlace r.ticketId r.side r.decisionId) with
  | none => none
  | some placed =>
    match placed.payload with
    | .orderPlaced p => some (outcomeIn (st.read.map Event.inDecimals) p.orderId)
    | _ => none

lemma inDecimals_fill {e : Event} {p : FillRecorded} (h : e.payload = .fillRecorded p) :
    e.inDecimals = { e with payload := .fillRecorded p.inDecimals } := by
  unfold Event.inDecimals
  rw [h]

lemma inDecimals_other {e : Event} (h : ∀ p, e.payload ≠ .fillRecorded p) : e.inDecimals = e := by
  unfold Event.inDecimals
  split
  · rename_i p hp
    exact absurd hp (h p)
  · rfl

lemma outcomeOf_inDecimals_isSome (o : ℕ) (e : Event) :
    (outcomeOf o e.inDecimals).isSome = e.payload.ends o := by
  by_cases h : ∃ p, e.payload = .fillRecorded p
  · obtain ⟨p, hp⟩ := h
    rw [outcomeOf_isSome, inDecimals_fill hp, hp]
    rfl
  · rw [inDecimals_other (not_exists.mp h), outcomeOf_isSome]

/-- A list with one element that a function takes has its value found. -/
lemma findSome_of_count {α β : Type} {f : α → Option β} {xs : List α}
    (hone : xs.countP (fun x => (f x).isSome) ≤ 1) {x : α} (hx : x ∈ xs) {b : β}
    (hb : f x = some b) : xs.findSome? f = some b := by
  induction xs with
  | nil => simp at hx
  | cons y ys ih =>
    rw [List.countP_cons] at hone
    rcases List.mem_cons.mp hx with rfl | hx
    · rw [List.findSome?_cons, hb]
    · have hpos : 0 < ys.countP fun z => (f z).isSome :=
        List.countP_pos_iff.mpr ⟨x, hx, by simp [hb]⟩
      have hy : f y = none := by
        by_contra hne
        have hsome : (f y).isSome = true := Option.isSome_iff_ne_none.mpr hne
        rw [if_pos hsome] at hone
        omega
      rw [List.findSome?_cons, hy]
      exact ih (by omega) hx

section Answers

variable {st : LedgerStore} {next o : ℕ} {r : OrderRequest} {e : Event} {y : Except Exc Fill}

/-- The answer is the one outcome of the order that stands under the key. -/
lemma repeatInDecimals_of_row (h : st.InOrder next)
    (hp : st.PlacedUnder (.execPlace r.ticketId r.side r.decisionId) o) (hone : st.endings o ≤ 1)
    (he : e ∈ st.read) (hy : outcomeOf o e.inDecimals = some y) :
    repeatInDecimals st r = some y := by
  obtain ⟨e₀, he₀, hk₀, p, hpay, rfl⟩ := hp
  have hkey : st.byKey (.execPlace r.ticketId r.side r.decisionId) = some e₀ := by
    cases hf : st.byKey (.execPlace r.ticketId r.side r.decisionId) with
    | none => exact absurd hk₀ (LedgerStore.byKey_eq_none_iff.mp hf e₀ he₀)
    | some e₁ =>
      obtain ⟨he₁, hk₁⟩ := LedgerStore.byKey_some hf
      rw [h.eq_of_key he₁ he₀ (hk₁.trans hk₀.symm)]
  have hcount : (st.read.map Event.inDecimals).countP
      (fun e => (outcomeOf p.orderId e).isSome) ≤ 1 := by
    rw [List.countP_map]
    refine le_of_eq_of_le (List.countP_congr fun e _ => ?_) hone
    simp only [Function.comp, outcomeOf_inDecimals_isSome]
  unfold repeatInDecimals
  rw [hkey]
  dsimp only
  rw [hpay]
  dsimp only [outcomeIn]
  rw [findSome_of_count hcount (List.mem_map_of_mem he) hy]
  rfl

/-- A told refusal is answered again. -/
lemma repeat_refusal (h : st.InOrder next)
    (hp : st.PlacedUnder (.execPlace r.ticketId r.side r.decisionId) o) (hone : st.endings o ≤ 1)
    {x : Exc} (ht : RefusalTold o x st) :
    ∃ y, repeatInDecimals st r = some (.error y) ∧ x.refusal = y.refusal := by
  obtain ⟨e, he, y, hy, hxy⟩ := ht
  refine ⟨y, repeatInDecimals_of_row h hp hone he ?_, hxy⟩
  have hother : ∀ p, e.payload ≠ .fillRecorded p := by
    intro p hp
    unfold outcomeOf at hy
    rw [hp] at hy
    dsimp only at hy
    split_ifs at hy
    exact nomatch Option.some.inj hy
  rw [inDecimals_other hother]
  exact hy

/-- What a fill lacks of what was asked for is nothing, or more than the digits of its fraction
leave out. -/
def Distinct (f n : ℤ) : Prop := f = n ∨ n < 2 * 10 ^ 28 * (n - f)

instance (f n : ℤ) : Decidable (Distinct f n) := inferInstanceAs (Decidable (_ ∨ _))

/-- The stored fraction reaches one for a full fill, and for one that lacks too little. -/
lemma decimal_full_iff {f n : ℤ} (hn : 0 < n) (hle : f ≤ n) :
    ((1 ≤ decimal ((f : ℚ) / n)) ↔ f = n) ↔ Distinct f n := by
  unfold decimal Distinct
  rw [Decimals.one_le_significant_div (by norm_num) hn hle]
  by_cases hf : f = n
  · simp only [hf, sub_self, mul_zero, hn.le, true_or]
  · simp only [hf, iff_false, false_or, not_le]

/-- A told fill is answered again with its figures, and with its status where it is distinct. -/
lemma repeat_fill (h : st.InOrder next)
    (hp : st.PlacedUnder (.execPlace r.ticketId r.side r.decisionId) o) (hone : st.endings o ≤ 1)
    {f n : ℤ} (hn : 0 < n) (hle : f ≤ n) {fill : Fill} (ht : FillTold o f n fill st) :
    ∃ status, repeatInDecimals st r = some (.ok { fill.inDecimals with status := status }) ∧
      (status = fill.status ↔ Distinct f n) := by
  obtain ⟨e, he, p, hpay, rfl, hfraction, rfl⟩ := ht
  refine ⟨if 1 ≤ decimal p.filledFraction then .filled else .partially,
    repeatInDecimals_of_row h hp hone he ?_, ?_⟩
  · rw [inDecimals_fill hpay]
    unfold outcomeOf
    dsimp only
    exact if_pos rfl
  · rw [← decimal_full_iff hn hle, hfraction]
    split_ifs <;> simp_all

end Answers

/-! ### The end of a call -/

lemma RefusalTold.mono {o : ℕ} {x : Exc} {st st' : LedgerStore} (h : RefusalTold o x st)
    (hp : st.read <+: st'.read) : RefusalTold o x st' := by
  obtain ⟨e, he, hy⟩ := h
  exact ⟨e, hp.subset he, hy⟩

lemma FillTold.mono {o : ℕ} {f n : ℤ} {fill : Fill} {st st' : LedgerStore}
    (h : FillTold o f n fill st) (hp : st.read <+: st'.read) : FillTold o f n fill st' := by
  obtain ⟨e, he, hy⟩ := h
  exact ⟨e, hp.subset he, hy⟩

/-- The outcome of a call is the one its last stretch reached, or an exception of the settling. -/
lemma runPlace_finished {cfg : DeskConfig} {c : PlaceCall} {owner : ℕ} {own : Bool}
    {m : Prog World Exc Next} {w : World} {out : Except Exc Fill}
    (h : (runPlace cfg c owner own m w).1 = .finished out) :
    (∃ x : Exc, x.Inner ∧ out = .error x) ∨
      ((m w).1 = out.map .done ∧
        (m w).2.desk.store.read <+: (runPlace cfg c owner own m w).2.desk.store.read) := by
  have hconclude : ∀ (o : Except Exc Fill) (w' : World),
      (concludePlace cfg c owner own o w').1 = out →
      (∃ x : Exc, x.Inner ∧ out = .error x) ∨ (o = out ∧
        w'.desk.store.read <+: (concludePlace cfg c owner own o w').2.desk.store.read) := by
    intro o w' hout
    have hread := (Sys.concludePlace_run cfg c owner own o w').1.store.read_extends
    rcases hs : settleProbes cfg c owner o.isOk w' with ⟨x | u, w''⟩
    · have hx : (concludePlace cfg c owner own o w').1 = .error x := by
        unfold concludePlace
        simp only [hs]
      refine .inl ⟨x, ?_, hout.symm.trans hx⟩
      unfold settleProbes at hs
      split_ifs at hs
      · exact (Prog.Raises.on (raises_releaseOrderProbes _ _ _)).run hs
      · cases (Prod.mk.inj hs).1
    · have ho : (concludePlace cfg c owner own o w').1 = o := by
        unfold concludePlace
        simp only [hs]
      exact .inr ⟨ho.symm.trans hout, hread⟩
  unfold runPlace at h ⊢
  rcases hm : m w with ⟨x | (next | fill), w'⟩
  · rw [hm] at h
    rcases hconclude (.error x) w' (PlaceState.finished.inj h) with hx | ⟨rfl, hread⟩
    · exact .inl hx
    · exact .inr ⟨rfl, hread⟩
  · rw [hm] at h
    cases h
  · rw [hm] at h
    rcases hconclude (.ok fill) w' (PlaceState.finished.inj h) with hx | ⟨rfl, hread⟩
    · exact .inl hx
    · exact .inr ⟨rfl, hread⟩

/-- The action resumes or cancels a call. -/
def Action.resumes (i : ℕ) : Action → Prop
  | .curve0 j _ _ _ | .wake j _ | .curve1 j _ | .abort j => j = i
  | _ => False

namespace Sys

section Steps

variable {cfg : DeskConfig} {s : Sys} {i : ℕ} {a : Action} {c : PlaceCall} {own : Bool}
  {st : PlaceState}

lemma calls_setCall {j : ℕ} (hj : j ≠ i) (x : Call) (w : World) :
    (s.setCall j x w).calls[i]? = s.calls[i]? := List.getElem?_set_ne hj

lemma calls_addCall (hi : i < s.calls.length) (x : Call) (w : World) :
    (s.addCall x w).calls[i]? = s.calls[i]? := List.getElem?_append_left hi

lemma calls_resumePlace {j : ℕ} (hj : j ≠ i)
    (stretch : PlaceCall → Wait → Option (Prog World Exc Next)) :
    (s.resumePlace cfg j stretch).calls[i]? = s.calls[i]? := by
  unfold resumePlace
  split
  · split
    · rfl
    · exact calls_setCall hj _ _
  · rfl

/-- What resumes no `place` call of an index leaves it as it is. -/
lemma calls_kept (hi : s.calls[i]? = some (.place c own st)) (ha : ¬ a.resumes i) :
    (s.step cfg a).calls[i]? = s.calls[i]? := by
  have hlt : i < s.calls.length := (List.getElem?_eq_some_iff.mp hi).1
  cases a with
  | startPlace c' => exact calls_addCall hlt _ _
  | curve0 j curve latency dropped => exact calls_resumePlace ha _
  | wake j overran => exact calls_resumePlace ha _
  | curve1 j curve => exact calls_resumePlace ha _
  | abort j =>
    simp only [step, abort]
    split
    · exact calls_resumePlace ha _
    · exact calls_setCall ha _ _
    · exact calls_setCall ha _ _
    · exact calls_setCall ha _ _
    · rfl
  | startMark mint source =>
    simp only [step, startMark]
    split <;> exact calls_addCall hlt _ _
  | markCurve j curve =>
    simp only [step, markCurve]
    split
    · rename_i hj
      refine calls_setCall (fun h => ?_) _ _
      rw [h, hi] at hj
      cases hj
    · rfl
  | startBook source =>
    simp only [step, startBook]
    split <;> exact calls_addCall hlt _ _
  | bookCurve j curve =>
    simp only [step, bookCurve]
    split
    · rename_i hj
      have hne : j ≠ i := by
        rintro rfl
        rw [hi] at hj
        cases hj
      split <;> exact calls_setCall hne _ _
    · rfl
  | startClose mint ticketId reason =>
    simp only [step, startClose]
    split <;> exact calls_addCall hlt _ _
  | closeCurve j curve =>
    simp only [step, closeCurve]
    split
    · rename_i hj
      refine calls_setCall (fun h => ?_) _ _
      rw [h, hi] at hj
      cases hj
    · rfl
  | append other =>
    simp only [step]
    split <;> rfl
  | _ => rfl

lemma call_of_waiting {wait : Wait} (h : s.waiting i = some (c, wait)) :
    ∃ own, s.calls[i]? = some (.place c own (.waiting wait)) := by
  unfold waiting at h
  obtain ⟨x, hx, hawait⟩ := Option.bind_eq_some_iff.mp h
  unfold Call.await at hawait
  split at hawait
  · obtain ⟨rfl, rfl⟩ := Prod.mk.inj (Option.some.inj hawait)
    exact ⟨_, hx⟩
  · cases hawait

/-- A resumed call that is finished is the end of its stretch. -/
lemma resumePlace_finished {wait : Wait} {c' : PlaceCall} {own' : Bool} {out : Except Exc Fill}
    {stretch : PlaceCall → Wait → Option (Prog World Exc Next)}
    (hi : s.calls[i]? = some (.place c own (.waiting wait)))
    (h : (s.resumePlace cfg i stretch).calls[i]? = some (.place c' own' (.finished out))) :
    ∃ m, stretch c wait = some m ∧ ((∃ x : Exc, x.Inner ∧ out = .error x) ∨
      ((m s.world).1 = out.map .done ∧
        (m s.world).2.desk.store.read <+: (s.resumePlace cfg i stretch).store.read)) := by
  have hlt : i < s.calls.length := (List.getElem?_eq_some_iff.mp hi).1
  unfold resumePlace at h ⊢
  rw [hi] at h ⊢
  dsimp only at h ⊢
  rcases hm : stretch c wait with - | m
  · rw [hm] at h
    dsimp only at h
    rw [hi] at h
    cases h
  · rw [hm] at h
    refine ⟨m, rfl, ?_⟩
    have hset : (s.calls.set i (.place c own (runPlace cfg c i own m s.world).1))[i]? =
        some (.place c own (runPlace cfg c i own m s.world).1) := List.getElem?_set_self hlt
    have hcall := Option.some.inj (hset.symm.trans h)
    obtain ⟨-, -, hfinished⟩ := Call.place.inj hcall
    exact runPlace_finished hfinished

/-- **How a placed order ends**: with what a row tells, or with no outcome of an order. -/
lemma outcome_told {p : Placed} {quoted : Quoted} {c' : PlaceCall} {own' : Bool}
    {out : Except Exc Fill} (hi : s.Holds i c p quoted) (hawaits : Awaits c p.orderId s.world.desk)
    (hreason : ∀ dec d, check cfg (c.checkCall cfg .confirming) s.world.desk = (.ok dec, d) →
      dec.reason ≠ .confirmationTimeout) (hq : quoted.Fractioned)
    (hend : (s.step cfg a).calls[i]? = some (.place c' own' (.finished out))) :
    match out with
    | .ok fill => FillTold p.orderId (confirmed cfg c s.world.desk quoted) quoted.asked fill
        (s.step cfg a).store
    | .error x => x.Inner ∨ RefusalTold p.orderId x (s.step cfg a).store := by
  obtain ⟨wait, hwait, hcases⟩ : ∃ wait, s.waiting i = some (c, wait) ∧
      (wait = .sleep p quoted ∨ wait = .curve1 p quoted) := by
    rcases hi with h | h
    · exact ⟨_, h, .inl rfl⟩
    · exact ⟨_, h, .inr rfl⟩
  obtain ⟨own, hcall⟩ := call_of_waiting hwait
  have hinner : ∀ x : Exc, x.Inner → out = .error x → match out with
      | .ok fill => FillTold p.orderId (confirmed cfg c s.world.desk quoted) quoted.asked fill
          (s.step cfg a).store
      | .error x => x.Inner ∨ RefusalTold p.orderId x (s.step cfg a).store := by
    rintro x hx rfl
    exact .inl hx
  by_cases ha : a.resumes i
  swap
  · rw [calls_kept hcall ha, hcall] at hend
    cases hend
  cases a with
  | curve0 j curve latency dropped =>
    obtain rfl : j = i := ha
    obtain ⟨m, hm, -⟩ := resumePlace_finished hcall hend
    rcases hcases with rfl | rfl <;> cases hm
  | wake j overran =>
    obtain rfl : j = i := ha
    obtain ⟨m, hm, ⟨x, hx, hout⟩ | ⟨hout, hread⟩⟩ := resumePlace_finished hcall hend
    · exact hinner x hx hout
    · rcases hcases with rfl | rfl
      · obtain rfl := Option.some.inj hm
        have hends := @placeWake_ends cfg _ _ _ hawaits quoted overran
        unfold Ends at hends
        rw [hout] at hends
        rcases out with x | fill
        · exact hends.imp_right fun h => h.mono hread
        · obtain ⟨wait, h⟩ := hends
          cases h
      · cases hm
  | curve1 j curve1 =>
    obtain rfl : j = i := ha
    obtain ⟨m, hm, ⟨x, hx, hout⟩ | ⟨hout, hread⟩⟩ := resumePlace_finished hcall hend
    · exact hinner x hx hout
    · rcases hcases with rfl | rfl
      · cases hm
      · obtain rfl := Option.some.inj hm
        have hends := placeCurve1_ends hawaits hreason hq curve1
        unfold Ends at hends
        rw [hout] at hends
        rcases out with x | fill
        · exact hends.imp_right fun h => h.mono hread
        · obtain ⟨fill', h, hfill⟩ := hends
          obtain rfl := Next.done.inj h
          exact hfill.mono hread
  | abort j =>
    obtain rfl : j = i := ha
    have hstep : s.step cfg (.abort j) =
        s.resumePlace cfg j fun _ _ => some (Prog.raise .taskCancelled) := by
      simp only [step, abort]
      rw [hcall]
    rw [hstep] at hend
    obtain ⟨m, hm, ⟨x, hx, hout⟩ | ⟨hout, -⟩⟩ := resumePlace_finished hcall hend
    · exact hinner x hx hout
    · obtain rfl := Option.some.inj hm
      rcases out with x | fill
      · obtain rfl := Except.error.inj hout
        exact .inl rfl
      · cases hout
  | _ => exact ha.elim

end Steps

section Runs

variable {cfg : DeskConfig} {s₀ s : Sys} {as : List Action} {i : ℕ} {c : PlaceCall} {p : Placed}
  {quoted : Quoted}

/-- What a waiting call has quoted is a fraction of something, and no more than the whole. -/
lemma quoted_whole (hb : ∀ bs, (Runs.after (step cfg) s₀ bs).Books cfg)
    (hwaits : Waits cfg s₀ as s) (hi : s.Holds i c p quoted) :
    quoted.Fractioned ∧ 0 < quoted.asked ∧ ∀ d, confirmed cfg c d quoted ≤ quoted.asked := by
  obtain ⟨dec, latency, dropped, hasked, -, hq⟩ := hwaits.quoted i c p quoted hi
  cases hq with
  | buy q hside hbuy =>
    obtain ⟨n, m, hn, -, hpos, -⟩ := hasked.sized hb hside
    rw [hn, Option.getD_some] at hbuy
    have hsize : q.size = n := hbuy.size_eq
    have hle : q.filled ≤ q.size := by
      rw [hsize, hbuy.filled_eq]
      exact min_le_left _ _
    have hasked : (Quoted.buy q).asked = n := hsize
    refine ⟨hbuy.fraction_eq, hasked ▸ hpos, fun d => ?_⟩
    unfold confirmed Quoted.asked
    dsimp only
    split
    · exact hle
    · rename_i dec' _
      rcases dec'.sizeLamports with - | cap
      · exact hle
      · exact (min_le_left _ _).trans hle
  | sell plan hside hsell =>
    exact ⟨hsell.fraction_eq, hsell.units_pos, fun _ => hsell.filled_le⟩

lemma step_extends (cfg : DeskConfig) (s : Sys) (a : Action) :
    s.store.read <+: (s.step cfg a).store.read := by
  obtain ⟨st, b, hg, hst⟩ := (step_move cfg s a).grows
  rw [hst]
  exact hg.read_extends

lemma run_extends (cfg : DeskConfig) (s : Sys) (as : List Action) :
    s.store.read <+: (Runs.after (step cfg) s as).store.read :=
  Runs.related (R := fun s t : Sys => s.store.read <+: t.store.read)
    (fun _ => List.prefix_refl _) (fun _ _ _ h h' => h.trans h') (step_extends cfg) s as

/-- The answer replays the outcome: the same fill, or the same refusal but for its text. -/
def Replays : Except Exc Fill → Except Exc Fill → Prop
  | .ok fill, .ok again => again = fill.inDecimals
  | .error x, .error y => x.refusal = y.refusal
  | _, _ => False

/-- **A repeated decision replays its outcome.** In every run, when a step ends a placed order with
a fill, a refusal or the unknown outcome, every later repeat of its decision, whatever ran since, is
answered with it: a refusal always, a fill exactly when what the second check leaves of its quote is
distinct from the whole, or is the whole. -/
theorem repeat_replays (cfg : DeskConfig) (now e₀ : ℤ) (killswitch : KillSwitch)
    (as : List Action) (a : Action) {s : Sys}
    (hs : s = Runs.after (step cfg) (start now e₀ killswitch) as) (hi : s.Holds i c p quoted)
    {c' : PlaceCall} {own : Bool} {out : Except Exc Fill}
    (hend : (s.step cfg a).calls[i]? = some (.place c' own (.finished out)))
    (hout : ∀ x, out = .error x → x.isOutcome = true) (bs : List Action) {r : OrderRequest}
    (hr : c.key = .execPlace r.ticketId r.side r.decisionId) :
    ∃ again, repeatInDecimals (Runs.after (step cfg) (s.step cfg a) bs).store r = some again ∧
      (Replays out again ↔ ∀ fill, out = .ok fill →
        Distinct (confirmed cfg c s.world.desk quoted) quoted.asked) := by
  have hb := books_after cfg now e₀ killswitch
  have hwaits : Waits cfg (start now e₀ killswitch) as s :=
    hs ▸ waits_after cfg now e₀ killswitch as
  have hordered : s.Ordered := hs ▸ ordered_after cfg now e₀ killswitch as
  have hrun : Runs.after (step cfg) (s.step cfg a) bs =
      Runs.after (step cfg) (start now e₀ killswitch) (as ++ a :: bs) := by
    rw [Runs.after_append, Runs.after_cons, hs]
  obtain ⟨hfraction, hpos, hle⟩ := quoted_whole hb hwaits hi
  have hreason : ∀ dec d, check cfg (c.checkCall cfg .confirming) s.world.desk = (.ok dec, d) →
      dec.reason ≠ .confirmationTimeout := by
    intro dec d hc
    have hbs : s.Books cfg := hs ▸ hb as
    obtain ⟨call₀, d₀, hdec, -⟩ := check_decided hbs.cache hbs.legal.solid hc
    have heval : evaluate cfg call₀ (keyedDesk d₀) = (.ok dec, _) := Prod.ext hdec.decided rfl
    exact evaluate_reason cfg call₀ heval
  have hawaits : Awaits c p.orderId s.world.desk :=
    ⟨hordered.inOrder, hordered.placed i c p quoted hi, hordered.pending i c p quoted hi⟩
  have htold := outcome_told hi hawaits hreason hfraction hend
  -- what the row tells, it tells in every later state
  have hlater := run_extends cfg (s.step cfg a) bs
  have hordered' : (Runs.after (step cfg) (s.step cfg a) bs).Ordered :=
    hrun ▸ ordered_after cfg now e₀ killswitch _
  have hplaced : (Runs.after (step cfg) (s.step cfg a) bs).store.PlacedUnder
      (.execPlace r.ticketId r.side r.decisionId) p.orderId :=
    hr ▸ hawaits.placed.mono ((step_extends cfg s a).trans hlater)
  rcases out with x | fill
  · have hx : x.isOutcome = true := hout x rfl
    rcases htold with hinner | htold
    · unfold Exc.Inner at hinner
      rw [hx] at hinner
      cases hinner
    · obtain ⟨y, hy, hxy⟩ := repeat_refusal hordered'.inOrder hplaced (hordered'.once _)
        (htold.mono hlater)
      refine ⟨.error y, hy, fun _ fill h => ?_, fun _ => hxy⟩
      cases h
  · obtain ⟨status, hy, hstatus⟩ := repeat_fill hordered'.inOrder hplaced (hordered'.once _) hpos
      (hle s.world.desk) (FillTold.mono htold hlater)
    refine ⟨_, hy, fun hsame _ _ => hstatus.mp ?_, fun h => ?_⟩
    · exact congrArg Fill.status hsame
    · have hs : status = fill.status := hstatus.mpr (h fill rfl)
      rw [hs]
      rfl

end Runs

/-- The outcome of a finished call. -/
def outcomeAt (s : Sys) (i : ℕ) : Option (Except Exc Fill) :=
  match s.calls[i]? with
  | some (.place _ _ (.finished out)) => some out
  | _ => none

/-- The filled outcome of a finished call. -/
def fillAt (s : Sys) (i : ℕ) : Option Fill :=
  match outcomeAt s i with
  | some (.ok fill) => some fill
  | _ => none

/-- Whether a call under this key waits for its second reading. -/
def waitsLast (s : Sys) (i : ℕ) (key : Key) : Bool :=
  match s.waiting i with
  | some (c, .curve1 _ _) => c.key == key
  | _ => false

lemma of_fillAt {s : Sys} {fill : Fill} (h : fillAt s i = some fill) :
    ∃ c own, s.calls[i]? = some (.place c own (.finished (.ok fill))) := by
  unfold fillAt outcomeAt at h
  split at h
  · rename_i out hout
    split at hout
    · rename_i c own out' hcall
      simp only [Option.some.injEq] at h hout
      subst h hout
      exact ⟨c, own, hcall⟩
    · cases hout
  · cases h

lemma of_waitsLast {s : Sys} {key : Key} (h : waitsLast s i key = true) :
    ∃ c p quoted, s.Holds i c p quoted ∧ c.key = key := by
  unfold waitsLast at h
  split at h
  · rename_i c p quoted hwait
    exact ⟨c, p, quoted, .inr hwait, by simpa using h⟩
  · cases h

/-- The sample buy, waiting for its second reading. -/
def sampleWaiting : List Action := sampleReserves :: (samplePlace 0 (sampleBuy 'a' 1)).take 3

/-- The sample buy once it is read a second time. -/
def sampleRead : Sys := (sampleAfter sampleWaiting).step sampleConfig (.curve1 0 (some sampleCurve))

lemma sampleWaiting_holds : ∃ c p quoted, (sampleAfter sampleWaiting).Holds 0 c p quoted ∧
    c.key = (sampleBuy 'a' 1).key :=
  of_waitsLast (by decide +kernel)

lemma sampleRead_fills : ∃ fill, fillAt sampleRead 0 = some fill :=
  Option.isSome_iff_exists.mp (by decide +kernel)

theorem repeat_replays_sample : ∃ c p quoted fill again,
    (sampleAfter sampleWaiting).Holds 0 c p quoted ∧ fillAt sampleRead 0 = some fill ∧
      repeatInDecimals sampleRead.store (sampleBuy 'a' 1).request = some again ∧
      (Replays (.ok fill) again ↔ ∀ fill', (Except.ok fill : Except Exc Fill) = .ok fill' →
        Distinct (confirmed sampleConfig c (sampleAfter sampleWaiting).world.desk quoted)
          quoted.asked) := by
  obtain ⟨c, p, quoted, hi, hkey⟩ := sampleWaiting_holds
  obtain ⟨fill, hfill⟩ := sampleRead_fills
  obtain ⟨c', own, hend⟩ := of_fillAt hfill
  unfold sampleRead at hend
  have hs : sampleAfter sampleWaiting =
      Runs.after (step sampleConfig) (start 0 10000000000 {}) sampleWaiting := by
    unfold sampleAfter sampleStart
    rfl
  obtain ⟨again, hagain, hiff⟩ := repeat_replays sampleConfig 0 10000000000 {} sampleWaiting
    (.curve1 0 (some sampleCurve)) hs hi hend (fun x hx => by cases hx) [] hkey
  rw [Runs.after_nil] at hagain
  exact ⟨c, p, quoted, fill, again, hi, hfill, hagain, hiff⟩

/-- Reserves of very many units. -/
def vastCurve : CurveSnapshot := { sLamports := 30000000000, tUnits := 10 ^ 33 }

def vastPlace (i : ℕ) (c : PlaceCall) : List Action :=
  [.startPlace c, .curve0 i (some vastCurve) 0 false, .wake i false, .curve1 i (some vastCurve)]

/-- A sale of one unit more than the sample buy takes of them. -/
def vastSell : PlaceCall := sampleSell 'a' 2 3289145818797966709857470347853 (by norm_num)

/-- A buy, and a sale of one unit more than is held. -/
def sampleOversold : List Action :=
  sampleReserves :: vastPlace 0 (sampleBuy 'a' 1) ++ vastPlace 1 vastSell

/-- A sale that lacks one unit of very many is partial, and replayed as full. -/
theorem oversold_replayed_filled :
    (fillAt (sampleAfter sampleOversold) 1).map Fill.status = some .partially ∧
      ((repeatInDecimals (sampleAfter sampleOversold).store vastSell.request).bind
        Except.toOption).map Fill.status = some .filled := by
  decide +kernel

end Sys

end PumpGrok
