import PumpGrok.Desk.Blind
import PumpGrok.Ledger.Reconcile

/-!
The desk over any number of processes on one ledger, with a snapshot at each orderly shutdown: what
a restart restores, and what its checks report.
-/

namespace PumpGrok

/-- The desk and the snapshots of its ledger. -/
structure Keep where
  sys : Sys
  snapshots : List Snapshot := []

namespace Keep

variable (cfg : DeskConfig) (texts : KeyTexts) (source : EventSource)

inductive Happening where
  | act (a : Action)
  | shutdown (ts : ℤ)
  | restart (d : Desk)

def snapStore (k : Keep) : SnapStore := { ledger := k.sys.store, snapshots := k.snapshots }

def happen (k : Keep) : Happening → Keep
  | .act a => { k with sys := k.sys.step cfg a }
  | .shutdown ts =>
    { k with snapshots := (shutdownSnapshot texts source ts k.snapStore).2.snapshots }
  | .restart d => { k with sys := k.sys.restart d }

def opened (now e₀ : ℤ) (killswitch : KillSwitch) : Keep := { sys := Sys.start now e₀ killswitch }

/-- The books are in order, and the snapshots are of their rows. -/
structure Kept (k : Keep) : Prop where
  books : k.sys.Books cfg
  archived : k.snapStore.Archived texts source

variable {cfg texts source} {k : Keep}

lemma legal_units {st : LedgerStore} (h : st.Legal) (m : Mint) :
    unitsHeld (positionsOf st.read) m = netUnits m (st.read.map (·.payload)) :=
  h.units m (List.prefix_refl st.txns)

lemma books_restart {s : Sys} (h : s.Books cfg) (d : Desk) : (s.restart d).Books cfg where
  legal := h.legal
  cache := by
    intro key dec hk
    have hnone : (s.restart d).world.desk.decisions = ∅ := rfl
    simp [hnone] at hk
  sized := by
    intro i c size hi
    simp [Sys.waiting, Sys.restart] at hi
  quoted := by
    rintro i c p q (hi | hi) <;> simp [Sys.waiting, Sys.restart] at hi

/-- **One happening** keeps the snapshots right. -/
theorem Kept.happen (h : k.Kept cfg texts source) (x : Happening) :
    (k.happen cfg texts source x).Kept cfg texts source := by
  cases x with
  | act a =>
    have hmove := Sys.step_move cfg k.sys a
    have hbooks := hmove.books h.books
    obtain ⟨st, b, hg, hst⟩ := hmove.grows
    have hnum : LedgerStore.Numbered (k.sys.step cfg a).store.read := by
      rw [hst]
      exact hg.numbered h.archived.numbered
    have hread : k.sys.store.read <+: (k.sys.step cfg a).store.read := by
      rw [hst]
      exact hg.read_extends
    have hequity : (k.sys.step cfg a).store.initialEquity = k.sys.store.initialEquity := by
      rw [hst]
      exact hg.initialEquity_eq
    exact ⟨hbooks, h.archived.grow hnum (legal_units hbooks.legal) hread hequity⟩
  | shutdown ts =>
    refine ⟨h.books, ?_⟩
    have hs := h.archived.shutdown ts
    have hledger : (shutdownSnapshot texts source ts k.snapStore).2.ledger = k.sys.store :=
      SnapStore.shutdown_ledger ts
    have hkeep : (k.happen cfg texts source (.shutdown ts)).snapStore =
        (shutdownSnapshot texts source ts k.snapStore).2 := by
      rw [snapStore]
      exact congrArg (fun l => SnapStore.mk l _) hledger.symm
    rw [hkeep]
    exact hs
  | restart d =>
    exact ⟨books_restart h.books d, ⟨h.archived.numbered, h.archived.units, h.archived.bodies⟩⟩

lemma kept_opened (now e₀ : ℤ) (killswitch : KillSwitch) :
    (opened now e₀ killswitch).Kept cfg texts source where
  books := Sys.books_start cfg now e₀ killswitch
  archived := ⟨rfl, fun m => rfl, fun snap hs => by cases hs⟩

end Keep

/-- What a reconcile reports: a broken chain, or a stale snapshot, or a state with the body of every
row folded from the first. -/
structure SnapStore.Reconciles (source : EventSource) (s : SnapStore) : Prop where
  restored : (s.restored source).state.SameBody (s.replayed source).state
  reported : ∃ report s', reconcile source s = (.ok report, s') ∧
    (report.status = .consistent ↔ s.ledger.intact = true ∧ ¬ s.Stale source) ∧
    report.detail =
      (if s.ledger.intact = false then some .chain
      else if s.Stale source then some .replay
      else none) ∧
    (report.status = .consistent →
      ∃ f, report.state = some f ∧ f.SameBody (s.replayed source))

lemma SnapStore.Archived.report_right {texts : KeyTexts} {source : EventSource} {s : SnapStore}
    (h : s.Archived texts source) : s.Reconciles source := by
  refine ⟨h.restored_state, ?_⟩
  rcases hi : s.ledger.intact with - | -
  · refine ⟨_, _, reconcile_broken hi, ?_⟩
    simp
  · have hmarked : Archived texts source
        { s with ledger := { s.ledger with inconsistent := false } } :=
      ⟨h.numbered, h.units, h.bodies⟩
    obtain ⟨hdetail, hstatus, hstate⟩ := hmarked.examined
    refine ⟨_, _, reconcile_intact hi, ?_, ?_, fun hc => ?_⟩
    · exact hstatus.trans ⟨fun hfresh => ⟨rfl, hfresh⟩, And.right⟩
    · rw [if_neg Bool.noConfusion]
      exact hdetail
    · have hfresh := hstatus.mp hc
      exact ⟨_, hstate hfresh, h.sameBody_iff.mpr hfresh⟩

/-- **A restart finds what the rows say.** After any run of the desk, with orders, marks, closes and
rows of other writers interleaved in any way, with restarts and with snapshots at any shutdowns, the
newest snapshot and the rows after it fold to what every row folds to from the first, for every
field but the source and the day; and a reconcile of an intact chain reports no fault but one: that
its newest snapshot is of the empty ledger, and the rows since have another source than `paper` or
no rollover among them. -/
theorem Keep.reconciles (cfg : DeskConfig) (texts : KeyTexts) (source : EventSource) (now e₀ : ℤ)
    (killswitch : KillSwitch) (xs : List Keep.Happening) :
    (Runs.after (Keep.happen cfg texts source) (Keep.opened now e₀ killswitch)
      xs).snapStore.Reconciles source := by
  have hkept := Runs.invariant (I := Keep.Kept cfg texts source)
    (fun _ x h => Keep.Kept.happen h x) (Keep.kept_opened now e₀ killswitch) xs
  exact hkept.archived.report_right

end PumpGrok
