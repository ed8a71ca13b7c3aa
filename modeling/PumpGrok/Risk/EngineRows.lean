import PumpGrok.Ledger.Growth
import PumpGrok.Risk.Engine

/-!
The rows the risk side appends on its own, one at a time: halts, escalations, the kill switch,
and breaker rows numbered by those on the ledger.
-/

namespace PumpGrok

def Payload.isEngine : Payload → Bool
  | .haltSet _ | .killSwitchSet _ | .breakerTripped _ | .breakerReset _ | .escalation _ => true
  | _ => false

/-- Breaker rows carry the number of their occurrence; other rows no breaker's key. -/
def Row.numbered (row : Row) (st : LedgerStore) : Bool :=
  match row.key, row.payload with
  | .breakerTrip n k, .breakerTripped p => p.breaker = n && k ≤ BreakerSet.tripCount st.read n + 1
  | .breakerReset n k, .breakerReset p => p.breaker = n && k ≤ BreakerSet.resetCount st.read n + 1
  | .breakerTrip _ _, _ | .breakerReset _ _, _ => false
  | _, _ => true

def HaltReason.isBreach : HaltReason → Bool
  | .dailyLoss | .drawdown => true
  | _ => false

/-- A halt stands under the key of its reason and its day, a breach only on a day without a clear;
and no halt is cleared. -/
def Row.haltOk (row : Row) (st : LedgerStore) : Bool :=
  match row.payload with
  | .haltSet p => row.key = .halt p.reason (utcDay row.ts) &&
      !(p.reason.isBreach && clearedToday st.read (utcDay row.ts))
  | .haltCleared _ => false
  | _ => true

/-- One row of the engine's own. -/
inductive EngineRow (st : LedgerStore) : List Row → Prop
  | mk (row : Row) (hp : row.payload.isEngine = true) (hk : row.key.isTrade = false)
      (hn : row.numbered st = true) (hh : row.haltOk st = true) : EngineRow st [row]

instance : IsPreorder LedgerStore (LedgerStore.Grows EngineRow) where
  refl _ := .refl
  trans _ _ _ := LedgerStore.Grows.trans

namespace BreakerSet

/-- One row of a breaker's. -/
inductive BreakerRow (st : LedgerStore) : List Row → Prop
  | trip (n : BreakerName) (ts : ℤ) (source : EventSource) : BreakerRow st [tripRow n ts source st]
  | reset (n : BreakerName) (ts : ℤ) (source : EventSource) (probeOk : Bool) :
      BreakerRow st [resetRow n ts source probeOk st]

lemma BreakerRow.engine {st : LedgerStore} {rows : List Row} (h : BreakerRow st rows) :
    EngineRow st rows := by
  cases h with
  | trip n ts source => exact .mk _ rfl rfl (by simp [Row.numbered, tripRow]) rfl
  | reset n ts source probeOk => exact .mk _ rfl rfl (by simp [Row.numbered, resetRow]) rfl

/-- The store of a breaker set grows by engine rows. -/
def Grown (s s' : Bound) : Prop := LedgerStore.Grows EngineRow s.2 s'.2

instance : IsPreorder Bound Grown where
  refl _ := .refl
  trans _ _ _ := LedgerStore.Grows.trans

/-- It grows by rows that `A` admits. -/
def Appends (A : LedgerStore → List Row → Prop) (s s' : Bound) : Prop :=
  LedgerStore.Grows A s.2 s'.2

instance (A : LedgerStore → List Row → Prop) : IsPreorder Bound (Appends A) where
  refl _ := .refl
  trans _ _ _ := LedgerStore.Grows.trans

/-- It grows by rows of the breakers. -/
def Written (s s' : Bound) : Prop := LedgerStore.Grows BreakerRow s.2 s'.2

instance : IsPreorder Bound Written where
  refl _ := .refl
  trans _ _ _ := LedgerStore.Grows.trans

lemma Written.grown {s s' : Bound} (h : Written s s') : Grown s s' :=
  LedgerStore.Grows.mono (fun _ _ => BreakerRow.engine) h

/-- `A` admits every row the breakers write at `ts`. -/
structure Admits (A : LedgerStore → List Row → Prop) (ts : ℤ) (source : EventSource) : Prop where
  trip : ∀ st n, A st [tripRow n ts source st]
  reset : ∀ st n probeOk, A st [resetRow n ts source probeOk st]

lemma admits_breakerRow (ts : ℤ) (source : EventSource) : Admits BreakerRow ts source where
  trip _ n := .trip n ts source
  reset _ n probeOk := .reset n ts source probeOk

section Appends

variable {A : LedgerStore → List Row → Prop} {ts : ℤ} {source : EventSource}

lemma onStore_appends {α : Type} {m : Prog LedgerStore Exc α}
    (h : Prog.Keeps (LedgerStore.Grows A) m) : Prog.Keeps (Appends A) (onStore m) :=
  h.on fun _ _ => id

lemma readState_appends (now : ℤ) (n : BreakerName) : Prog.Keeps (Appends A) (readState now n) :=
  fun _ => .refl

/-- A change of the memory alone. -/
lemma memory_appends (f : Bound → BreakerSet) :
    Prog.Keeps (Appends A) (Prog.modify fun s => (f s, s.2) : Prog Bound Exc Unit) :=
  .modify fun _ => .refl

variable (hA : Admits A ts source) (now : ℤ)
include hA

lemma transition_appends (n : BreakerName) (before : BreakerState) (probeOk : Bool) :
    Prog.Keeps (Appends A) (transition now n before ts source probeOk) := by
  refine (readState_appends now n).bind fun after => ?_
  refine .ite (.pure _) (.ite ?_ (.ite ?_ (.pure _)))
  · exact onStore_appends fun st => LedgerStore.grows_appendSuppressing _ fun _ => hA.trip st n
  · exact onStore_appends fun st =>
      LedgerStore.grows_appendSuppressing _ fun _ => hA.reset st n probeOk

lemma refreshOne_appends (before : BreakerName → BreakerState) (n : BreakerName) :
    Prog.Keeps (Appends A) (refreshOne now ts source before n) :=
  (memory_appends _).bind fun _ => transition_appends hA now n (before n) false

lemma refresh_appends (equityNow : ℤ) :
    Prog.Keeps (Appends A) (refresh now ts source equityNow) := by
  refine (Prog.Keeps.read _).bind fun before => (memory_appends _).bind fun _ => ?_
  refine (refreshOne_appends hA now before _).bind fun _ => ?_
  refine (refreshOne_appends hA now before _).bind fun _ => ?_
  exact refreshOne_appends hA now before _

lemma noteTick_appends (tick : ℤ) :
    Prog.Keeps (Appends A) (noteTick now tick ts source) := by
  refine (readState_appends now _).bind fun before => (memory_appends _).bind fun _ => ?_
  exact transition_appends hA now _ before false

lemma noteMiss_appends : Prog.Keeps (Appends A) (noteMiss now ts source) := by
  refine (readState_appends now _).bind fun before => (memory_appends _).bind fun _ => ?_
  exact transition_appends hA now _ before false

lemma resolveProbe_appends (n : BreakerName) (ok : Bool) :
    Prog.Keeps (Appends A) (resolveProbe now n ok ts source) := by
  refine (readState_appends now n).bind fun before => ?_
  refine Prog.Keeps.bind (.resultOf fun _ _ => .refl) fun _ => ?_
  exact transition_appends hA now n before ok

end Appends

lemma refresh_written (now tsUtc : ℤ) (source : EventSource) (equityNow : ℤ) :
    Prog.Keeps Written (refresh now tsUtc source equityNow) :=
  refresh_appends (admits_breakerRow tsUtc source) now equityNow

lemma noteTick_grown (now ts tsUtc : ℤ) (source : EventSource) :
    Prog.Keeps Grown (noteTick now ts tsUtc source) :=
  (noteTick_appends (admits_breakerRow tsUtc source) now ts).mono fun _ _ => Written.grown

lemma noteMiss_grown (now tsUtc : ℤ) (source : EventSource) :
    Prog.Keeps Grown (noteMiss now tsUtc source) :=
  (noteMiss_appends (admits_breakerRow tsUtc source) now).mono fun _ _ => Written.grown

lemma refresh_grown (now tsUtc : ℤ) (source : EventSource) (equityNow : ℤ) :
    Prog.Keeps Grown (refresh now tsUtc source equityNow) :=
  (refresh_written now tsUtc source equityNow).mono fun _ _ => Written.grown

lemma resolveProbe_grown (now : ℤ) (n : BreakerName) (ok : Bool) (tsUtc : ℤ)
    (source : EventSource) : Prog.Keeps Grown (resolveProbe now n ok tsUtc source) :=
  (resolveProbe_appends (admits_breakerRow tsUtc source) now n ok).mono fun _ _ => Written.grown

end BreakerSet

namespace KillSwitch

/-- The store the switch is recorded in grows by engine rows. -/
def Grown (s s' : KillSwitch × LedgerStore) : Prop := LedgerStore.Grows EngineRow s.2 s'.2

lemma observe_grown (ts : ℤ) (source : EventSource) : Prog.Keeps Grown (observe ts source) := by
  intro s
  unfold observe Grown
  dsimp only
  split_ifs
  · exact .refl
  · exact LedgerStore.grows_appendSuppressing _ fun _ => .mk _ rfl rfl rfl rfl

end KillSwitch

end PumpGrok
