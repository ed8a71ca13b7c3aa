import PumpGrok.Replay.Sources
import PumpGrok.Lib.Runs

/-!
A serve over a recorded timeline. Time moves tick by tick, and further while an order settles;
the process may be stopped after any row and restarted from its ledger.
-/

namespace PumpGrok

/-- A timeline row: its stamp, and the mint if it is the `OrderPlaced` row of a buy. Row 1 of the
ledger, the checkpoint verdict, is not one. -/
structure TimelineRow where
  ts : ℤ
  buyOf : Option Mint
  deriving DecidableEq

/-- One order for a candidate: the reserves its risk check read, and the snapshot it was quoted
from. -/
structure CandidateQuote where
  candidate : CandidateVerdict
  checked : Option (ℤ × ℤ)
  quoted : Option CurveSnapshot
  deriving DecidableEq

/-- How an order goes: when its risk check runs (after the first step of virtual time, or later if
the tool's rate limit makes it wait), whether its batch is appended, and when it has settled. -/
structure Outcome where
  checkedAt : ℤ := 0
  placed : Bool := true
  settledAt : ℤ := 0

structure Serve where
  clock : ℤ
  cfg : FilterSettings
  attempted : Finset ℕ := ∅
  rows : List TimelineRow := []
  resumeAfter : Option ℤ := none
  quotes : List CandidateQuote := []
  /-- candidates whose order row this process appended -/
  placed : Finset ℕ := ∅
  /-- candidates whose order row an earlier process appended -/
  earlier : Finset ℕ := ∅
  /-- candidates of an earlier process that a later one attempted -/
  again : Finset ℕ := ∅

/-- What moves a serve. Other clock effects (a recorded model latency, an order that outlives its
cycle) elapse, and every other writer appends rows at the clock. -/
inductive ServeAction where
  | tick (at' : ℤ)
  | hold
  | elapse (d : ℕ)
  | row
  | attempt (index : ℕ) (o : Outcome)
  | sell (o : Outcome)
  | reload (cfg : FilterSettings)
  | restart (cfg : FilterSettings)

namespace Serve

/-- `_VIRTUAL_STEP_S` and `TICK_S`. -/
def virtualStep : ℤ := 250000

def tickStep : ℤ := 1000000

variable (r : Recording)

def candidates (s : Serve) : List CandidateVerdict := evaluateCandidates r.ticks s.cfg

/-- The instant an order's task first runs: its creator advances the clock before it yields. -/
def checkTime (s : Serve) (o : Outcome) : ℤ := max o.checkedAt (s.clock + virtualStep)

/-- The candidate that the loop body at an index attempts. -/
def eligible (s : Serve) (index : ℕ) : Option CandidateVerdict :=
  match (s.candidates r)[index]? with
  | none => none
  | some c =>
    if c.verdict.decision ≠ .buy ∨ index ∈ s.attempted then none
    else if s.clock < c.ts then none
    else some c

/-- The loop body of `_place_candidates`. -/
def attempt (s : Serve) (index : ℕ) (o : Outcome) : Serve :=
  match s.eligible r index with
  | none => s
  | some c =>
    { s with
      attempted := insert index s.attempted
      clock := max o.settledAt (s.checkTime o)
      quotes := s.quotes ++
        [⟨c, r.reserves c.mint (s.checkTime o), r.latest c.mint (s.checkTime o)⟩]
      rows := if o.placed then s.rows ++ [⟨s.checkTime o, some c.mint⟩] else s.rows
      placed := if o.placed then insert index s.placed else s.placed
      again := if index ∈ s.earlier then insert index s.again else s.again }

/-- A rule sell settles on virtual time too. -/
def sell (s : Serve) (o : Outcome) : Serve :=
  { s with
    clock := max o.settledAt (s.checkTime o)
    rows := if o.placed then s.rows ++ [⟨s.checkTime o, none⟩] else s.rows }

/-- A tick that the clock has passed, or that the resumed ledger already holds, is skipped. -/
def Skips (s : Serve) (at' : ℤ) : Prop := at' < s.clock ∨ ∃ t ∈ s.resumeAfter, at' ≤ t

instance (s : Serve) (at' : ℤ) : Decidable (s.Skips at') := by
  unfold Skips
  infer_instance

def tick (s : Serve) (at' : ℤ) : Serve :=
  if at' ∈ r.stamps ∧ ¬ s.Skips at' then { s with clock := at' } else s

/-- Every candidate at or before the current tick is marked placed. -/
def reload (s : Serve) (cfg : FilterSettings) : Serve :=
  { s with
    cfg := cfg
    attempted := s.attempted ∪ (Finset.range (evaluateCandidates r.ticks cfg).length).filter
      fun i => ∀ c ∈ (evaluateCandidates r.ticks cfg)[i]?, c.ts ≤ s.clock }

/-- The candidates with an order row of the same mint and the same stamp. -/
def recognised (rows : List TimelineRow) (cs : List CandidateVerdict) : Finset ℕ :=
  (Finset.range cs.length).filter fun i => ∀ c ∈ cs[i]?,
    c.verdict.decision = .buy ∧ ⟨c.ts, some c.mint⟩ ∈ rows

def resumeStamp (rows : List TimelineRow) : Option ℤ := rows.getLast?.map TimelineRow.ts

/-- A new process over the ledger of the last one. -/
def restart (s : Serve) (cfg : FilterSettings) : Serve :=
  { s with
    clock := max r.eventsStart ((resumeStamp s.rows).getD r.eventsStart)
    cfg := cfg
    attempted := recognised s.rows (evaluateCandidates r.ticks cfg)
    resumeAfter := resumeStamp s.rows
    placed := ∅
    earlier := s.earlier ∪ s.placed }

def step (s : Serve) : ServeAction → Serve
  | .tick at' => s.tick r at'
  | .hold => { s with clock := s.clock + tickStep }
  | .elapse d => { s with clock := s.clock + d }
  | .row => { s with rows := s.rows ++ [⟨s.clock, none⟩] }
  | .attempt index o => s.attempt r index o
  | .sell o => s.sell o
  | .reload cfg => s.reload r cfg
  | .restart cfg => s.restart r cfg

def start (cfg : FilterSettings) : Serve where
  clock := r.eventsStart
  cfg := cfg

/-! ### Pricing at a candidate's own tick -/

/-- Every order was checked and quoted from the snapshot of its candidate's own tick. -/
def OwnTick (s : Serve) : Prop :=
  ∀ q ∈ s.quotes, q.checked = r.reserves q.candidate.mint q.candidate.ts ∧
    q.quoted = r.latest q.candidate.mint q.candidate.ts

/-- No tick of the candidate's mint comes after its own and before its order's first step ends. -/
def Unmoved (s : Serve) : ServeAction → Prop
  | .attempt index o => ∀ c ∈ s.eligible r index, ¬ r.TickIn c.mint c.ts (s.checkTime o)
  | _ => True

instance (s : Serve) (a : ServeAction) : Decidable (s.Unmoved r a) := by
  cases a <;> unfold Unmoved <;> infer_instance

variable {r}

lemma eligible_some {s : Serve} {index : ℕ} {c : CandidateVerdict}
    (h : s.eligible r index = some c) : (s.candidates r)[index]? = some c ∧
      c.verdict.decision = .buy ∧ index ∉ s.attempted ∧ c.ts ≤ s.clock := by
  unfold eligible at h
  split at h
  · simp at h
  · next d hd =>
    split_ifs at h with h₁ h₂
    push Not at h₁
    obtain rfl := Option.some.inj h
    exact ⟨hd, h₁.1, h₁.2, by omega⟩

lemma clock_lt_checkTime (s : Serve) (o : Outcome) : s.clock < s.checkTime o := by
  unfold checkTime virtualStep
  omega

lemma attempt_quotes (s : Serve) (index : ℕ) (o : Outcome) :
    (s.attempt r index o).quotes = s.quotes ++ ((s.eligible r index).map fun c =>
      (⟨c, r.reserves c.mint (s.checkTime o), r.latest c.mint (s.checkTime o)⟩ :
        CandidateQuote)).toList := by
  unfold attempt
  rcases s.eligible r index with - | c <;> simp

/-- Reserves are read off the snapshot. -/
lemma reserves_eq {mint : Mint} {a u : ℤ} (h : r.latest mint u = r.latest mint a) :
    r.reserves mint u = r.reserves mint a := by
  rw [Recording.reserves, Recording.reserves, h]

lemma ownTick_step {s : Serve} (h : s.OwnTick r) (a : ServeAction) :
    (s.step r a).OwnTick r ↔ s.Unmoved r a := by
  cases a with
  | attempt index o =>
    simp only [step, OwnTick, Unmoved, attempt_quotes]
    rcases he : s.eligible r index with - | c
    · simp only [Option.map_none, Option.toList_none, List.append_nil, Option.mem_def,
        reduceCtorEq, false_implies, implies_true, iff_true]
      exact h
    · have hle : c.ts ≤ s.checkTime o :=
        (eligible_some he).2.2.2.trans (clock_lt_checkTime s o).le
      have hiff : r.latest c.mint (s.checkTime o) = r.latest c.mint c.ts ↔
          ¬ r.TickIn c.mint c.ts (s.checkTime o) := Recording.latest_eq_iff hle
      simp only [Option.map_some, Option.toList_some, List.mem_append, List.mem_singleton,
        Option.mem_def, Option.some.injEq, forall_eq']
      constructor
      · intro hq
        exact hiff.mp (hq _ (.inr rfl)).2
      · rintro hc q (hq | rfl)
        · exact h q hq
        · exact ⟨reserves_eq (hiff.mpr hc), hiff.mpr hc⟩
  | tick at' =>
    have hq : (s.tick r at').quotes = s.quotes := by
      unfold tick
      split_ifs <;> rfl
    simpa [OwnTick, Unmoved, step, hq] using h
  | hold => simpa [OwnTick, Unmoved, step] using h
  | elapse d => simpa [OwnTick, Unmoved, step] using h
  | row => simpa [OwnTick, Unmoved, step] using h
  | sell o => simpa [OwnTick, Unmoved, step, sell] using h
  | reload cfg => simpa [OwnTick, Unmoved, step, reload] using h
  | restart cfg => simpa [OwnTick, Unmoved, step, restart] using h

/-- A token that the default filter admits, seen at a stamp with some reserves. -/
def sampleTick (stamp s : ℤ) : Tick where
  stamp := stamp
  mint := "M".toList
  s := some s
  t := some 1000000000000000
  name := some "name".toList
  imageUri := some "image".toList
  created := some 1000000
  uniqueBuyers := some 10

/-- Two ticks of one mint, a tenth of a second apart. -/
def closeTicks : Recording where
  ticks := [sampleTick 200000000 10000000000, sampleTick 200100000 20000000000]
  sorted := by decide

end Serve

end PumpGrok
