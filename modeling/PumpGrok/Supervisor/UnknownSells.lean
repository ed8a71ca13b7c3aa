import PumpGrok.Supervisor.PeakRestart

/-!
Sells the venue leaves unknown. The book holds their openings out, and no pass sells such an
opening again, as long as no restart forgets one that is still on the ledger.
-/

namespace PumpGrok

namespace ExitDesk

/-- No sell is of an opening that an earlier sell left unknown. -/
def NeverRetried (s : ExitDesk) : Prop :=
  s.sold.Pairwise fun a b => a.unknown = true → (b.mint, b.opening) ≠ (a.mint, a.opening)

instance (s : ExitDesk) : Decidable s.NeverRetried :=
  inferInstanceAs (Decidable (List.Pairwise _ _))

/-- The opening is that of a position on the ledger. -/
def onLedger (s : ExitDesk) (x : Mint × ℕ) : Bool :=
  ((replay (initialState 0 0) s.store.read).positions.get x.1).isSome &&
    (openedSeq s.store.read).get x.1 = some x.2

/-- A restart finds no held-out opening on the ledger. -/
def Clears (s : ExitDesk) : Act → Prop
  | .restart => ∀ x ∈ s.book.heldOut, s.onLedger x = false
  | _ => True

instance (s : ExitDesk) : ∀ a, Decidable (s.Clears a)
  | .restart => inferInstanceAs (Decidable (∀ x ∈ s.book.heldOut, s.onLedger x = false))
  | .rows _ | .check _ | .reload _ => .isTrue trivial

/-- The next pass tracks every position whose opening was not left unknown. -/
def Offers (s : ExitDesk) : Prop :=
  ∀ m opening view, Held s.store.read m opening view → 0 < view.tokenUnits →
    (∀ sell ∈ s.sold, sell.unknown = true → (sell.mint, sell.opening) ≠ (m, opening)) →
    s.sync.book.positions.get m = some (s.book.tracked m opening view)

/-- What the book holds out is what was left unknown, and still on the ledger. -/
structure Withheld (s : ExitDesk) : Prop where
  sound : s.Sound
  retried : s.NeverRetried
  known : ∀ sell ∈ s.sold, sell.opening ≤ s.store.count
  held : ∀ sell ∈ s.sold, sell.unknown = true → ∀ view,
    Held s.store.read sell.mint sell.opening view → (sell.mint, sell.opening) ∈ s.book.heldOut
  only : ∀ x ∈ s.book.heldOut, ∃ sell ∈ s.sold, sell.unknown = true ∧
    x = (sell.mint, sell.opening)

variable {s : ExitDesk}

lemma onLedger_of_held {m : Mint} {opening : ℕ} {view : PositionView}
    (h : Held s.store.read m opening view) : s.onLedger (m, opening) = true := by
  unfold onLedger
  simp [h.position, h.opened]

namespace Withheld

lemma append (h : s.Withheld) (rows : List Row) : (s.append rows).Withheld := by
  have hcount : s.store.count ≤ (s.append rows).store.count := by
    rcases append_store _ rows with hst | ⟨-, hst⟩
    · rw [hst]
    · rw [hst, LedgerStore.count_commit]
      omega
  refine ⟨sound_append h.sound rows, h.retried, fun sell hsell => (h.known sell hsell).trans hcount,
    fun sell hsell hu view hheld => ?_, h.only⟩
  rcases held_of_append hheld with ⟨view₀, h₀, -⟩ | hnew
  · exact h.held sell hsell hu view₀ h₀
  · have := h.known sell hsell
    omega

lemma sync (h : s.Withheld) : s.sync.Withheld :=
  ⟨sound_sync h.sound, h.retried, h.known, h.held, h.only⟩

/-- A pass sells no mint twice. -/
lemma sells_distinct (b : ExitBook) (st : LedgerStore) (pass : ExitPass) :
    ((b.sync st).checkOnce pass).2.Pairwise fun x y => y.mint ≠ x.mint := by
  rw [(ExitBook.checkOnce_spec b st pass).2]
  have hnodup := List.pairwise_map.mp (ExitBook.sync_mints_nodup b st)
  refine hnodup.filterMap _ fun x y hxy sell hsell sell' hsell' => ?_
  have hmint : ∀ {z : ExitPosition} {u : RuleSell}, (b.sync st).sellOf pass z = some u →
      u.mint = z.mint := by
    intro z u hu
    unfold ExitBook.sellOf at hu
    split_ifs at hu
    obtain ⟨signal, -, rfl⟩ := Option.map_eq_some_iff.mp hu
    rfl
  rw [hmint hsell, hmint hsell']
  exact hxy.symm

lemma checkOnce (h : s.Withheld) (pass : ExitPass) : (s.sync.checkOnce pass).Withheld := by
  have hnew : ∀ sell ∈ (s.sync.book.checkOnce pass).2,
      (∃ view, Held s.store.read sell.mint sell.opening view) ∧
        (sell.mint, sell.opening) ∉ s.book.heldOut := by
    intro sell hsell
    obtain ⟨m, opening, view, hheld, hs, hsale⟩ := ExitBook.mem_checkOnce_iff.mp hsell
    obtain ⟨hm, ho⟩ := ExitBook.saleOf_opening hsale
    have hm' : sell.mint = m := hm
    rw [hm', ho]
    exact ⟨⟨view, hheld⟩, fun hmem => hs (.inr hmem)⟩
  refine ⟨sound_checkOnce h.sound pass, ?_, fun sell hsell => ?_,
    fun sell hsell hu view hheld => ?_,
    fun x hx => ?_⟩
  · refine List.pairwise_append.mpr ⟨h.retried, ?_, fun a ha b hb hu heq => ?_⟩
    · refine (sells_distinct s.book s.store pass).imp fun hne _ heq => ?_
      exact hne (Prod.mk.inj heq).1
    · obtain ⟨⟨view, hheld⟩, hfree⟩ := hnew b hb
      obtain ⟨hm, ho⟩ := Prod.mk.inj heq
      rw [hm, ho] at hheld hfree
      exact hfree (h.held a ha hu view hheld)
  · rcases List.mem_append.mp hsell with hsell | hsell
    · exact h.known sell hsell
    · obtain ⟨⟨view, hheld⟩, -⟩ := hnew sell hsell
      exact hheld.opening_le h.sound.numbered
  · refine ExitBook.checkOnce_heldOut.mpr ?_
    rcases List.mem_append.mp hsell with hsell | hsell
    · exact .inl (h.held sell hsell hu view hheld)
    · exact .inr ⟨sell, hsell, hu, rfl⟩
  · rcases ExitBook.checkOnce_heldOut.mp hx with hx | ⟨sell, hsell, hu, rfl⟩
    · obtain ⟨sell, hsell, hu, rfl⟩ := h.only x hx
      exact ⟨sell, List.mem_append_left _ hsell, hu, rfl⟩
    · exact ⟨sell, List.mem_append_right _ hsell, hu, rfl⟩

lemma step (h : s.Withheld) {a : Act} (hc : s.Clears a) : (s.step a).Withheld := by
  cases a with
  | rows rows => exact h.append rows
  | check pass => exact (h.sync.append pass.closes).checkOnce pass
  | reload exits => exact ⟨sound_step h.sound (.reload exits), h.retried, h.known, h.held, h.only⟩
  | restart =>
    refine ⟨sound_step h.sound .restart, h.retried, h.known, fun sell hsell hu view hheld => ?_,
      fun x hx => (nomatch hx)⟩
    -- what the restart would forget is not on the ledger
    have hold : Held s.store.read sell.mint sell.opening view := hheld
    have hfree := hc _ (h.held sell hsell hu view hold)
    rw [onLedger_of_held hold] at hfree
    cases hfree

lemma start (exits : ExitsSettings) : (ExitDesk.start exits).Withheld :=
  ⟨sound_start exits, .nil, fun _ h => (nomatch h), fun _ h => (nomatch h), fun _ h => (nomatch h)⟩

lemma offers (h : s.Withheld) : s.Offers := by
  intro m opening view hheld hu hfree
  have hs : ¬ s.book.Skips m opening view := by
    rintro (hle | hmem)
    · omega
    · obtain ⟨sell, hsell, hunknown, hx⟩ := h.only _ hmem
      exact hfree sell hsell hunknown hx.symm
  exact (ExitBook.sync_get hheld).1.trans (if_neg hs)

end Withheld

/-- **An unknown sell is never retried** in a run whose restarts find no opening held out that is
still on the ledger; every other opening, a re-entry's too, is tracked by the next pass. -/
theorem unknown_never_retried (exits : ExitsSettings) (as : List Act)
    (h : Runs.Along step Clears (start exits) as) :
    (after exits as).NeverRetried ∧ (after exits as).Offers := by
  have hwithheld : (after exits as).Withheld :=
    Runs.invariant_along (fun _ _ hs hc => hs.step hc) (Withheld.start exits) h
  exact ⟨hwithheld.retried, hwithheld.offers⟩

/-- A pass whose sells the venue leaves unknown. -/
def unknownAt (m : Mint) (price : ℤ) : ExitPass :=
  { passAt m price with unknown := fun _ => true }

/-- The position closes, and a new one opens in its mint. -/
def climbClosed : Row where
  ts := 2
  source := .paper
  key := .close 1
  payload := .positionClosed
    { mint := climbMint
      priceExit := 50 / 1000000000
      proceedsLamports := 500
      realizedPnlLamports := -500
      reason := .manual
      pnlPct := -50
      holdSeconds := 2
      venueTxRef := 1 }

def climbReopened : Row := { climbOpened with key := .position 2 }

/-- An unknown sell, a restart once the position is closed, and a sell of the re-entry. -/
def sampleUnknown : List Act :=
  [.rows [climbOpened], .check (unknownAt climbMint 60), .check (unknownAt climbMint 50),
    .rows [climbClosed], .restart, .rows [climbReopened], .check (passAt climbMint 60)]

theorem unknown_never_retried_sample :
    Runs.Along step Clears (start {}) sampleUnknown ∧
      (after {} sampleUnknown).sold.map RuleSell.opening = [1, 3] ∧
      (after {} sampleUnknown).NeverRetried ∧ (after {} sampleUnknown).Offers :=
  have h : Runs.Along step Clears (start {}) sampleUnknown := by decide +kernel
  ⟨h, by decide +kernel, unknown_never_retried {} sampleUnknown h⟩

/-- A restart while the position is open, and a pass. -/
def sampleRetried : List Act :=
  [.rows [climbOpened], .check (unknownAt climbMint 60), .restart, .check (passAt climbMint 60)]

/-- The new process sells the opening again. -/
theorem restart_retries : ¬ (after {} sampleRetried).NeverRetried := by decide +kernel

end ExitDesk

end PumpGrok
