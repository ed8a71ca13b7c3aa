import PumpGrok.Desk.StepBatches
import PumpGrok.Risk.Unstopped

/-!
No buy fills under a stop. Between the confirming evaluation of an order and its fill nothing
else is appended, so what the evaluation found holds of the very rows the fill follows.
-/

namespace PumpGrok

/-- A condition on the buy fills from row `n` on, each next to the rows before it. -/
def OnBuys (P : List Event → FillRecorded → Prop) (n : ℕ) (es : List Event) : Prop :=
  ∀ front e f, front ++ [e] <+: es → n ≤ front.length → e.payload = .fillRecorded f →
    f.side = .buy → P front f

section OnBuys

variable {P : List Event → FillRecorded → Prop} {n : ℕ} {es fs : List Event}

lemma onBuys_self (P : List Event → FillRecorded → Prop) (es : List Event) :
    OnBuys P es.length es := by
  intro front e f hp hn
  have hle := hp.length_le
  rw [List.length_append, List.length_singleton] at hle
  omega

lemma OnBuys.concat {e : Event} (h : OnBuys P n es)
    (he : ∀ f, e.payload = .fillRecorded f → f.side = .buy → P es f) : OnBuys P n (es ++ [e]) := by
  intro front x f hp hn hx hb
  rcases List.prefix_concat_iff.mp hp with heq | hp'
  · obtain ⟨rfl, hxe⟩ := List.append_inj' heq rfl
    rw [List.singleton_inj.mp hxe] at hx
    exact he f hx hb
  · exact h front x f hp' hn hx hb

lemma OnBuys.aside (h : OnBuys P n es) (hf : ∀ e ∈ fs, e.payload.isBuyFill = false) :
    OnBuys P n (es ++ fs) := by
  induction fs using List.reverseRecOn with
  | nil => simpa using h
  | append_singleton fs e ih =>
    rw [← List.append_assoc]
    refine (ih fun x hx => hf x (List.mem_append_left _ hx)).concat fun f he hb => ?_
    have hno := hf e (by simp)
    simp [he, Payload.isBuyFill, hb] at hno

end OnBuys

namespace Sys

/-- Each buy fill a step appends is of an order that was held, follows the rows its confirming
evaluation left, and was stopped by nothing there. -/
def FillsCleared (cfg : DeskConfig) (s : Sys) (a : Action) : Prop :=
  OnBuys (fun front f => ∃ i c p quote dec d, s.waiting i = some (c, .curve1 p (.buy quote)) ∧
    f.mint = c.request.mint ∧
    evaluate cfg (c.checkCall cfg .confirming) (keyedDesk s.world.desk) = (.ok dec, d) ∧
    d.store.read = front ∧ Unstopped cfg (orderHashFor c.request) d)
    s.store.read.length (s.step cfg a).store.read

/-- **No buy fills under a stop**, in any step of any run. -/
theorem no_buy_under_stop (cfg : DeskConfig) (now e₀ : ℤ) (killswitch : KillSwitch)
    (as : List Action) (a : Action) :
    FillsCleared cfg (Runs.after (step cfg) (start now e₀ killswitch) as) a := by
  set s := Runs.after (step cfg) (start now e₀ killswitch) as
  have hs : s.Reached cfg := reached_after cfg now e₀ killswitch as
  obtain ⟨st, b, hg, hst⟩ := (step_move cfg s a).appends hs.books hs.ordered
  unfold FillsCleared
  rw [hst]
  show OnBuys _ _ st.read
  refine hg.invariant (I := fun st => OnBuys _ s.store.read.length st.read) (fun _ _ h => h) ?_
    (onBuys_self _ _)
  intro st rows h _ hb
  rw [LedgerStore.read_commit]
  rcases hb.buys with hr | ⟨i, c, p, quote, q, curve, out1, dec, d, hst, hi, hside, he, hp, rfl⟩
  · exact h.aside fun e he => stamp_aside hr he
  · have hclear := (passed_unstopped he hp hside).2
    have hfill := h.concat (e := { buyFillRow cfg c (buyFigures p q curve out1 d.nextId) d.now with
      seq := st.count + 1 }) fun f hf _ => ⟨i, c, p, quote, dec, d, hi,
        by rw [← Payload.fillRecorded.inj hf], he, by rw [hst], hclear⟩
    unfold boughtRows buyFillRows
    split_ifs
    · exact hfill
    · have hnone : ∀ e ∈ LedgerStore.stamp (st.count + 1 + 1)
          [buyPositionRow cfg c (buyFigures p q curve out1 d.nextId) d.now],
          e.payload.isBuyFill = false := fun e he =>
        stamp_aside (by simp [buyPositionRow, Payload.isBuyFill]) he
      have hall := hfill.aside hnone
      rw [List.append_assoc] at hall
      exact hall

end Sys

end PumpGrok
