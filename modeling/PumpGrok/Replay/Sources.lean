import PumpGrok.Execution.Models

/-!
A recording, the candidates the filter finds in it, and the curve reads at a virtual time.
-/

namespace PumpGrok

/-- One recorded event, in microseconds. -/
structure Tick where
  stamp : ℤ
  mint : Mint
  /-- reserves, where they are integers -/
  s : Option ℤ := none
  t : Option ℤ := none
  complete : Bool := false
  name : Option Text := none
  imageUri : Option Text := none
  /-- creation, in microseconds -/
  created : Option ℤ := none
  uniqueBuyers : Option ℕ := none
  deriving DecidableEq

/-- What loading a dataset checks: stamps do not go backwards. -/
structure Recording where
  ticks : List Tick
  sorted : ticks.Pairwise fun a b => a.stamp ≤ b.stamp

structure FilterSettings where
  minUniqueBuyers : ℕ := 5
  maxCurveProgress : ℚ := 2 / 5
  requireMetadata : Bool := true
  minAgeSeconds : ℚ := 120

structure Token where
  mint : Mint
  name : Option Text
  imageUri : Option Text
  createdTimestamp : ℤ
  uniqueBuyers : Option ℕ
  curveProgress : ℚ

/-- `sol_to_lamports(85)`. -/
def curveCompletionLamports : ℤ := 85000000000

/-- An absent field stays absent; unknown reserves read as a full curve. -/
def tickToCandidate (e : Tick) : Token where
  mint := e.mint
  name := e.name
  imageUri := e.imageUri
  createdTimestamp := e.created.getD 0
  uniqueBuyers := e.uniqueBuyers
  curveProgress := match e.s with
    | some s => min 1 ((s : ℚ) / curveCompletionLamports)
    | none => 1

namespace Token

def hasMetadata (t : Token) : Bool := t.name.getD [] ≠ [] && t.imageUri.getD [] ≠ []

def ageSeconds (t : Token) (now : ℤ) : ℚ :=
  if t.createdTimestamp = 0 then 0 else max 0 (((now - t.createdTimestamp : ℤ) : ℚ) / 1000000)

end Token

def passesFilter (token : Token) (cfg : FilterSettings) (now : ℤ) : Bool × String :=
  if cfg.requireMetadata ∧ token.hasMetadata = false then (false, "no_metadata")
  else if cfg.maxCurveProgress ≤ token.curveProgress then (false, "curve_too_full")
  else if token.ageSeconds now < cfg.minAgeSeconds then (false, "too_young")
  else
    match token.uniqueBuyers with
    | none => (false, "data_unavailable")
    | some n => if n < cfg.minUniqueBuyers then (false, "few_buyers") else (true, "ok")

inductive Decision where
  | buy
  | skip
  deriving DecidableEq

structure EngineDecision where
  decision : Decision
  reason : String
  mint : Mint
  deriving DecidableEq

def decideToken (token : Token) (cfg : FilterSettings) (now : ℤ) : EngineDecision :=
  match passesFilter token cfg now with
  | (true, _) => ⟨.buy, "ok", token.mint⟩
  | (false, reason) => ⟨.skip, reason, token.mint⟩

structure CandidateVerdict where
  ts : ℤ
  mint : Mint
  verdict : EngineDecision
  deriving DecidableEq

/-- Every tick is its own candidate, judged at its own time. -/
def candidateOf (cfg : FilterSettings) (e : Tick) : CandidateVerdict :=
  ⟨e.stamp, e.mint, decideToken (tickToCandidate e) cfg e.stamp⟩

def evaluateCandidates (events : List Tick) (cfg : FilterSettings) : List CandidateVerdict :=
  events.map (candidateOf cfg)

namespace Recording

variable (r : Recording)

def hasReserves (e : Tick) : Bool := e.s.isSome && e.t.isSome

/-- The ticks that can price. -/
def priced : List Tick := r.ticks.filter hasReserves

/-- `dataset_stamps`. -/
def stamps : List ℤ := (r.ticks.map Tick.stamp).dedup

def eventsStart : ℤ := ((r.ticks.map Tick.stamp).head?).getD 0

/-- The loop of `_latest`: it stops at the first tick after `now`. -/
def latestFrom (mint : Mint) (now : ℤ) : Option Tick → List Tick → Option Tick
  | best, [] => best
  | best, e :: es =>
    if now < e.stamp then best else latestFrom mint now (if e.mint = mint then some e else best) es

def snapshotOf (e : Tick) : CurveSnapshot where
  sLamports := e.s.getD 0
  tUnits := e.t.getD 0
  complete := e.complete
  source := .fixture
  ts := some e.stamp

def latest (mint : Mint) (now : ℤ) : Option CurveSnapshot :=
  (latestFrom mint now none r.priced).map snapshotOf

/-- The lookup of the risk engine. -/
def reserves (mint : Mint) (now : ℤ) : Option (ℤ × ℤ) :=
  (r.latest mint now).map fun c => (c.sLamports, c.tUnits)

/-! ### The latest tick -/

section Latest

variable {r} {mint : Mint} {now : ℤ}

lemma latestFrom_eq {es : List Tick} (h : es.Pairwise fun a b => a.stamp ≤ b.stamp)
    (best : Option Tick) :
    latestFrom mint now best es =
      ((es.filter fun e => e.stamp ≤ now ∧ e.mint = mint).getLast?).or best := by
  induction es generalizing best with
  | nil => rfl
  | cons e es ih =>
    rw [List.pairwise_cons] at h
    rw [latestFrom]
    split_ifs with hnow hm
    · have hnone : (e :: es).filter (fun e => decide (e.stamp ≤ now ∧ e.mint = mint)) = [] := by
        rw [List.filter_eq_nil_iff]
        intro x hx
        have hle : e.stamp ≤ x.stamp := by
          rcases List.mem_cons.mp hx with rfl | hx
          · exact le_rfl
          · exact h.1 x hx
        have : ¬ x.stamp ≤ now := by omega
        simp [this]
      rw [hnone]
      rfl
    · have hle : e.stamp ≤ now := by omega
      rw [ih h.2, List.filter_cons_of_pos (by simp [hle, hm]), List.getLast?_cons]
      generalize (es.filter fun e => decide (e.stamp ≤ now ∧ e.mint = mint)).getLast? = last
      cases last <;> rfl
    · rw [ih h.2, List.filter_cons_of_neg (by simp [hm])]

/-- A tick of the mint that can price, stamped in an interval. -/
def TickIn (r : Recording) (mint : Mint) (a u : ℤ) : Prop :=
  ∃ e ∈ r.priced, e.mint = mint ∧ a < e.stamp ∧ e.stamp ≤ u

instance (r : Recording) (mint : Mint) (a u : ℤ) : Decidable (r.TickIn mint a u) :=
  inferInstanceAs (Decidable (∃ e ∈ r.priced, e.mint = mint ∧ a < e.stamp ∧ e.stamp ≤ u))

lemma latest_eq (r : Recording) (mint : Mint) (now : ℤ) :
    r.latest mint now =
      ((r.priced.filter fun e => e.stamp ≤ now ∧ e.mint = mint).getLast?).map snapshotOf := by
  have hsorted : r.priced.Pairwise fun a b => a.stamp ≤ b.stamp := r.sorted.filter _
  rw [latest, latestFrom_eq hsorted, Option.or_none]

/-- **When a later read sees the same snapshot:** no tick of the mint came between. -/
theorem latest_eq_iff {a u : ℤ} (h : a ≤ u) :
    r.latest mint u = r.latest mint a ↔ ¬ r.TickIn mint a u := by
  rw [latest_eq, latest_eq]
  constructor
  · rintro heq ⟨e, he, hmint, hae, heu⟩
    have hmem : e ∈ r.priced.filter fun e => e.stamp ≤ u ∧ e.mint = mint :=
      List.mem_filter.mpr ⟨he, by simp [heu, hmint]⟩
    obtain ⟨x, hx⟩ : ∃ x, (r.priced.filter fun e => e.stamp ≤ u ∧ e.mint = mint).getLast? =
        some x := List.getLast?_isSome.mpr (List.ne_nil_of_mem hmem) |> Option.isSome_iff_exists.mp
    rw [hx, Option.map_some] at heq
    obtain ⟨y, hy, hyx⟩ := Option.map_eq_some_iff.mp heq.symm
    have hstamp : y.stamp = x.stamp := by
      have := congrArg CurveSnapshot.ts hyx
      simpa [snapshotOf] using this
    have hya : y.stamp ≤ a := by
      have := List.mem_filter.mp (List.mem_of_getLast? hy)
      simp only [decide_eq_true_eq] at this
      exact this.2.1
    -- the last tick up to `u` is no earlier than `e`
    have hex : e.stamp ≤ x.stamp := by
      obtain ⟨front, hfront⟩ := List.getLast?_eq_some_iff.mp hx
      have hs := (r.sorted.filter hasReserves).filter fun e => decide (e.stamp ≤ u ∧ e.mint = mint)
      have hs' : (front ++ [x]).Pairwise fun a b : Tick => a.stamp ≤ b.stamp := hfront ▸ hs
      rw [hfront] at hmem
      rcases List.mem_append.mp hmem with hm | hm
      · exact (List.pairwise_append.mp hs').2.2 e hm x (by simp)
      · rw [List.mem_singleton.mp hm]
    omega
  · intro hnone
    have hsame : (r.priced.filter fun e => decide (e.stamp ≤ u ∧ e.mint = mint)) =
        r.priced.filter fun e => decide (e.stamp ≤ a ∧ e.mint = mint) := by
      refine List.filter_congr fun e he => ?_
      simp only [decide_eq_decide]
      constructor
      · rintro ⟨heu, hmint⟩
        refine ⟨?_, hmint⟩
        by_contra hae
        exact hnone ⟨e, he, hmint, by omega, heu⟩
      · rintro ⟨hea, hmint⟩
        exact ⟨by omega, hmint⟩
    rw [hsame]

end Latest

end Recording

end PumpGrok
