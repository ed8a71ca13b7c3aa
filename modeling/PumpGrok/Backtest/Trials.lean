import PumpGrok.Core.CanonicalJson
import PumpGrok.Core.Types
import PumpGrok.Lib.ByteLines
import PumpGrok.Lib.PyText
import PumpGrok.Lib.Runs

/-!
The trial ledger of one backtest run: a file of JSON lines that any number of instances append
to, each call under the lock of the file. Every call derives its number from the file as it
stands.
-/

namespace PumpGrok

open Json (Value)
open CanonicalJson (text)

namespace Trials

def maxEligibleTrials : ℕ := 20

def maxAllowedTrials : ℕ := 50

structure TrialVerdict where
  trialNumber : ℕ
  paramsHash : Text
  eligibleForPromotion : Bool
  deriving DecidableEq

/-- What is wrong with a line. -/
inductive LineFault where
  | blank
  | undecodable
  | malformed
  | inconsistent
  deriving DecidableEq

inductive TrialError where
  | emptyRunId
  | emptyHash
  | tooManyTrials (runId : Text) (trialNumber : ℕ)
  | corruptState (fault : LineFault) (line : ℕ)
  | unicodeDecode
  deriving DecidableEq

def recordOf (v : TrialVerdict) : List (Text × Value) :=
  [(text "trial_number", .num v.trialNumber), (text "params_hash", .str v.paramsHash),
    (text "eligible_for_promotion", .bool v.eligibleForPromotion)]

def recordKeys : List Text :=
  [text "trial_number", text "params_hash", text "eligible_for_promotion"]

/-- `json.dumps(..., sort_keys=True)`. -/
def recordLine (v : TrialVerdict) : Text :=
  Json.dumps ⟨true, true⟩ (CanonicalJson.sortKeys (.obj (recordOf v)))

/-- The keys of the record are exactly the three; the last member under a key counts. -/
def record (ms : List (Text × Value)) : Option (Value × Value × Value) :=
  if (ms.map Prod.fst).toFinset = recordKeys.toFinset then do
    let number ← AssocList.get (text "trial_number") ms.reverse
    let paramsHash ← AssocList.get (text "params_hash") ms.reverse
    let eligible ← AssocList.get (text "eligible_for_promotion") ms.reverse
    return (number, paramsHash, eligible)
  else none

def readLine (lineNumber : ℕ) (line : Bytes) : Except TrialError TrialVerdict :=
  match Bytes.decode line with
  | none => .error .unicodeDecode
  | some t =>
    if PyText.strip t = [] then .error (.corruptState .blank lineNumber)
    else
      match Json.loads t with
      | none => .error (.corruptState .undecodable lineNumber)
      | some (.obj ms) =>
        match record ms with
        | none => .error (.corruptState .malformed lineNumber)
        | some (.num number, .str paramsHash, .bool eligible) =>
          if number ≠ lineNumber ∨ paramsHash = [] ∨
              eligible ≠ decide (number ≤ maxEligibleTrials) then
            .error (.corruptState .inconsistent lineNumber)
          else .ok ⟨lineNumber, paramsHash, eligible⟩
        | some _ => .error (.corruptState .inconsistent lineNumber)
      | some _ => .error (.corruptState .malformed lineNumber)

def readLines : ℕ → List Bytes → Except TrialError (List TrialVerdict)
  | _, [] => .ok []
  | n, l :: ls => do
    let v ← readLine n l
    let rest ← readLines (n + 1) ls
    .ok (v :: rest)

/-- The file, or nothing where the path does not exist. -/
def readLedger (file : Option Bytes) : Except TrialError (List TrialVerdict) :=
  match file with
  | none => .ok []
  | some data => readLines 1 (Bytes.splitlines data)

/-- One instance: the run it names in errors and the list it keeps. -/
structure TrialLedger where
  runId : Text
  trials : List TrialVerdict

def newLedger (runId : Text) (file : Option Bytes) : Except TrialError TrialLedger :=
  if runId = [] then .error .emptyRunId
  else do
    let trials ← readLedger file
    .ok ⟨runId, trials⟩

/-- One call: what it returns, and the file and the instance after it. Opening the file for
appending creates it. -/
def recordTrial (l : TrialLedger) (paramsHash : Text) (file : Option Bytes) :
    Except TrialError TrialVerdict × Option Bytes × TrialLedger :=
  if paramsHash = [] then (.error .emptyHash, file, l)
  else
    let data := file.getD []
    match readLedger (some data) with
    | .error e => (.error e, some data, l)
    | .ok persisted =>
      let trialNumber := persisted.length + 1
      if maxAllowedTrials < trialNumber then
        (.error (.tooManyTrials l.runId trialNumber), some data, l)
      else
        let verdict : TrialVerdict :=
          ⟨trialNumber, paramsHash, decide (trialNumber ≤ maxEligibleTrials)⟩
        (.ok verdict, some (data ++ Bytes.encode (recordLine verdict) ++ [Bytes.newline]),
          { l with trials := persisted ++ [verdict] })

/-! ### The machine -/

/-- The path and the instances on it. -/
structure World where
  file : Option Bytes
  ledgers : ℕ → Option TrialLedger

def World.init : World := ⟨none, fun _ => none⟩

inductive Action where
  /-- instance `i` is made for a run -/
  | new (i : ℕ) (runId : Text)
  | record (i : ℕ) (paramsHash : Text)

/-- What a call returns; nothing where there is no such instance. -/
def returned (w : World) : Action → Option (Except TrialError TrialVerdict)
  | .new _ _ => none
  | .record i paramsHash => (w.ledgers i).map fun l => (recordTrial l paramsHash w.file).1

def step (w : World) : Action → World
  | .new i runId =>
    match newLedger runId w.file with
    | .ok l => { w with ledgers := Function.update w.ledgers i (some l) }
    | .error _ => w
  | .record i paramsHash =>
    match w.ledgers i with
    | none => w
    | some l =>
      let (_, file, l') := recordTrial l paramsHash w.file
      ⟨file, Function.update w.ledgers i (some l')⟩

/-- The verdicts that the calls of a run returned, in order. -/
def verdicts (w : World) : List Action → List TrialVerdict
  | [] => []
  | a :: as =>
    match returned w a with
    | some (.ok v) => v :: verdicts (step w a) as
    | _ => verdicts (step w a) as

/-! ### Lines read back -/

/-- Numbered from `n` on, eligible up to the limit, each with a digest. -/
def NumberedFrom : ℕ → List TrialVerdict → Prop
  | _, [] => True
  | n, v :: vs =>
    (v.trialNumber = n ∧ v.paramsHash ≠ [] ∧
      v.eligibleForPromotion = decide (n ≤ maxEligibleTrials)) ∧ NumberedFrom (n + 1) vs

lemma numberedFrom_append {n : ℕ} {vs vs' : List TrialVerdict} :
    NumberedFrom n (vs ++ vs') ↔ NumberedFrom n vs ∧ NumberedFrom (n + vs.length) vs' := by
  induction vs generalizing n with
  | nil => simp [NumberedFrom]
  | cons v vs ih =>
    have hlen : n + (v :: vs).length = n + 1 + vs.length := by
      rw [List.length_cons]
      omega
    rw [List.cons_append, NumberedFrom, NumberedFrom, ih, hlen]
    exact and_assoc.symm

lemma NumberedFrom.get {n : ℕ} {vs : List TrialVerdict} (h : NumberedFrom n vs) :
    ∀ k v, vs[k]? = some v → v.trialNumber = n + k ∧ v.paramsHash ≠ [] ∧
      v.eligibleForPromotion = decide (n + k ≤ maxEligibleTrials) := by
  induction vs generalizing n with
  | nil => simp
  | cons u vs ih =>
    intro k v hk
    rcases k with - | k
    · obtain rfl : u = v := by simpa using hk
      exact h.1
    · have := ih h.2 k v (by simpa using hk)
      rwa [Nat.add_right_comm] at this

/-- The line of a verdict, as bytes. -/
def lineBytes (v : TrialVerdict) : Bytes := Bytes.encode (recordLine v)

lemma line_lineBytes (v : TrialVerdict) : Bytes.Line (lineBytes v) :=
  Bytes.encode_line (Json.printable_dumps _ _)

lemma record_sorted (v : TrialVerdict) :
    record (CanonicalJson.sortMembers (CanonicalJson.sortKeysMembers (recordOf v))) =
      some (.num v.trialNumber, .str v.paramsHash, .bool v.eligibleForPromotion) := by
  have hkeys : ((CanonicalJson.sortMembers
      (CanonicalJson.sortKeysMembers (recordOf v))).map Prod.fst).toFinset =
        recordKeys.toFinset := by
    have hperm := (List.mergeSort_perm (CanonicalJson.sortKeysMembers (recordOf v))
      fun a b => decide (a.1 ≤ b.1)).map Prod.fst
    refine (List.toFinset_eq_of_perm _ _ hperm).trans ?_
    rw [CanonicalJson.map_fst_sortKeysMembers]
    rfl
  have hn : ((recordOf v).map Prod.fst).Nodup := by
    show recordKeys.Nodup
    decide
  rw [record, if_pos hkeys,
    CanonicalJson.get_sortMembers (v := .num v.trialNumber) hn (by simp [recordOf]),
    CanonicalJson.get_sortMembers (v := .str v.paramsHash) hn (by simp [recordOf]),
    CanonicalJson.get_sortMembers (v := .bool v.eligibleForPromotion) hn (by simp [recordOf])]
  rfl

/-- A dumped object is no blank line. -/
lemma strip_dumps_obj (y : Json.Style) (ms : List (Text × Value)) :
    PyText.strip (Json.dumps y (.obj ms)) ≠ [] := by
  obtain ⟨x, hx⟩ : ∃ x, Json.dumps y (.obj ms) = '{' :: x := by
    rcases ms with - | ⟨⟨k, v⟩, ms⟩
    · exact ⟨['}'], by rw [Json.dumps]⟩
    · exact ⟨_, by rw [Json.dumps]⟩
  have hbrace : PyText.isSpace '{' = false := by decide
  rw [hx, PyText.strip, PyText.lstrip_cons_of_not_space hbrace, PyText.rstrip]
  intro h
  have hall := List.dropWhile_eq_nil_iff.mp (List.reverse_eq_nil_iff.mp h) '{' (by simp)
  rw [hbrace] at hall
  exact absurd hall (by simp)

/-- **A line is read back** as the verdict it was written for. -/
lemma readLine_lineBytes {n : ℕ} {v : TrialVerdict} (hn : v.trialNumber = n)
    (hh : v.paramsHash ≠ []) (he : v.eligibleForPromotion = decide (n ≤ maxEligibleTrials)) :
    readLine n (lineBytes v) = .ok v := by
  have hloads : Json.loads (recordLine v) =
      some (.obj (CanonicalJson.sortMembers (CanonicalJson.sortKeysMembers (recordOf v)))) :=
    Json.loads_dumps _ _
  have hstrip : PyText.strip (recordLine v) ≠ [] := strip_dumps_obj _ _
  subst hn
  simp only [readLine, lineBytes, Bytes.decode_encode, if_neg hstrip, hloads, record_sorted]
  rw [if_neg]
  simp [hh, he]

lemma readLines_lineBytes {n : ℕ} {vs : List TrialVerdict} (h : NumberedFrom n vs) :
    readLines n (vs.map lineBytes) = .ok vs := by
  induction vs generalizing n with
  | nil => rfl
  | cons v vs ih =>
    obtain ⟨⟨hn, hh, he⟩, hvs⟩ := h
    rw [List.map_cons, readLines, readLine_lineBytes hn hh he, ih hvs]
    rfl

/-- What calls have written for `vs`. -/
def written (vs : List TrialVerdict) : Bytes := Bytes.joinLines (vs.map lineBytes)

lemma written_append (vs : List TrialVerdict) (v : TrialVerdict) :
    written (vs ++ [v]) = written vs ++ Bytes.encode (recordLine v) ++ [Bytes.newline] := by
  rw [written, written, List.map_append, Bytes.joinLines_append, List.append_assoc]
  simp [Bytes.joinLines, lineBytes]

lemma written_eq_nil {vs : List TrialVerdict} (h : written vs = []) : vs = [] := by
  rcases vs with - | ⟨v, vs⟩
  · rfl
  · simp [written, Bytes.joinLines] at h

theorem readLedger_written {vs : List TrialVerdict} (h : NumberedFrom 1 vs) :
    readLedger (some (written vs)) = .ok vs := by
  have hlines : Bytes.splitlines (written vs) = vs.map lineBytes :=
    Bytes.splitlines_joinLines fun l hl => by
      obtain ⟨v, -, rfl⟩ := List.mem_map.mp hl
      exact line_lineBytes v
  rw [readLedger, hlines]
  exact readLines_lineBytes h

/-! ### Runs -/

/-- The file holds the trials `vs`. -/
structure Holds (file : Option Bytes) (vs : List TrialVerdict) : Prop where
  bytes : file.getD [] = written vs
  numbered : NumberedFrom 1 vs
  bounded : vs.length ≤ maxAllowedTrials

lemma Holds.read {file : Option Bytes} {vs : List TrialVerdict} (h : Holds file vs) :
    readLedger (some (file.getD [])) = .ok vs := by
  rw [h.bytes]
  exact readLedger_written h.numbered

/-- A path that does not exist reads as an empty file does. -/
lemma readLedger_getD (file : Option Bytes) :
    readLedger file = readLedger (some (file.getD [])) := by
  rcases file with - | data <;> rfl

/-- While there is room, a call for a digest appends its verdict. -/
lemma recordTrial_room {file : Option Bytes} {vs : List TrialVerdict} (h : Holds file vs)
    (l : TrialLedger) {paramsHash : Text} (hp : paramsHash ≠ [])
    (hmax : vs.length < maxAllowedTrials) :
    ∃ v l', recordTrial l paramsHash file = (.ok v, some (written (vs ++ [v])), l') ∧
      l'.trials = vs ++ [v] ∧ v.paramsHash = paramsHash ∧
      Holds (some (written (vs ++ [v]))) (vs ++ [v]) := by
  have hmax' : ¬ maxAllowedTrials < vs.length + 1 := by omega
  set v : TrialVerdict :=
    ⟨vs.length + 1, paramsHash, decide (vs.length + 1 ≤ maxEligibleTrials)⟩ with hv
  refine ⟨v, { l with trials := vs ++ [v] }, ?_, rfl, rfl, rfl, ?_, ?_⟩
  · rw [recordTrial, if_neg hp]
    simp only [h.bytes, readLedger_written h.numbered, if_neg hmax', written_append, hv]
  · refine numberedFrom_append.mpr ⟨h.numbered, ⟨?_, hp, ?_⟩, trivial⟩
    · rw [hv]
      exact Nat.add_comm _ _
    · rw [hv, Nat.add_comm 1]
  · rw [List.length_append, List.length_singleton]
    omega

/-- An empty digest, and any call once the file is full, are refused and leave the file. -/
lemma recordTrial_refused {file : Option Bytes} {vs : List TrialVerdict} (h : Holds file vs)
    (l : TrialLedger) {paramsHash : Text}
    (hno : ¬ (paramsHash ≠ [] ∧ vs.length < maxAllowedTrials)) :
    ∃ e, recordTrial l paramsHash file = (.error e, file, l) := by
  by_cases hp : paramsHash = []
  · exact ⟨_, by rw [recordTrial, if_pos hp]⟩
  have hmax : maxAllowedTrials < vs.length + 1 :=
    Nat.lt_succ_of_le (not_lt.mp fun hlt => hno ⟨hp, hlt⟩)
  -- the file exists, as trials have been written to it
  obtain ⟨data, rfl⟩ : ∃ data, file = some data := by
    rcases file with - | data
    · obtain rfl := written_eq_nil h.bytes.symm
      exact absurd hmax (by decide)
    · exact ⟨data, rfl⟩
  refine ⟨.tooManyTrials l.runId (vs.length + 1), ?_⟩
  have hr : readLedger (some data) = .ok vs := h.read
  rw [recordTrial, if_neg hp]
  simp only [Option.getD_some, hr, if_pos hmax]

lemma returned_new (w : World) (i : ℕ) (runId : Text) : returned w (.new i runId) = none := rfl

/-- What one action may do. A call that returns a verdict returns it for its digest, numbered
next after the trials of the file, and adds it to them and to the instance; any other action
leaves the file. A call of an instance returns one exactly when its digest is not empty and the
file has room. -/
structure Sound (w : World) (a : Action) : Prop where
  returns : ∀ v, returned w a = some (.ok v) → ∃ i vs, a = .record i v.paramsHash ∧
    readLedger w.file = .ok vs ∧ v.trialNumber = vs.length + 1 ∧
    readLedger (step w a).file = .ok (vs ++ [v]) ∧
    ((step w a).ledgers i).map TrialLedger.trials = some (vs ++ [v])
  leaves : (∀ v, returned w a ≠ some (.ok v)) → (step w a).file = w.file
  counts : ∀ i paramsHash vs, a = .record i paramsHash → (w.ledgers i).isSome →
    readLedger w.file = .ok vs →
      ((∃ v, returned w a = some (.ok v)) ↔ paramsHash ≠ [] ∧ vs.length < maxAllowedTrials)

/-- The verdict that an action returned, if it returned one. -/
def verdict (w : World) (a : Action) : List TrialVerdict :=
  match returned w a with
  | some (.ok v) => [v]
  | _ => []

lemma verdicts_cons (w : World) (a : Action) (as : List Action) :
    verdicts w (a :: as) = verdict w a ++ verdicts (step w a) as := by
  rw [verdicts, verdict]
  split <;> rfl

/-- A call while there is room. -/
lemma step_recorded {w : World} {vs : List TrialVerdict} (h : Holds w.file vs) {i : ℕ}
    {l : TrialLedger} (hl : w.ledgers i = some l) {paramsHash : Text}
    (hroom : paramsHash ≠ [] ∧ vs.length < maxAllowedTrials) :
    Holds (step w (.record i paramsHash)).file (vs ++ verdict w (.record i paramsHash)) ∧
      Sound w (.record i paramsHash) := by
  have hread : readLedger w.file = .ok vs := (readLedger_getD w.file).trans h.read
  obtain ⟨v, l', hrec, htrials, hhash, hv⟩ := recordTrial_room h l hroom.1 hroom.2
  have hret : returned w (.record i paramsHash) = some (.ok v) := by
    simp [returned, hl, hrec]
  have hstep : step w (.record i paramsHash) =
      ⟨some (written (vs ++ [v])), Function.update w.ledgers i (some l')⟩ := by
    simp [step, hl, hrec]
  refine ⟨?_, ⟨fun u hu => ?_, fun hno => absurd hret (hno v), ?_⟩⟩
  · rw [hstep, verdict, hret]
    exact hv
  · obtain rfl : v = u := by
      rw [hret] at hu
      exact Except.ok.inj (Option.some.inj hu)
    refine ⟨i, vs, by rw [hhash], hread, ?_, ?_, ?_⟩
    · have := (hv.numbered.get vs.length v (by simp)).1
      omega
    · rw [hstep]
      exact readLedger_written hv.numbered
    · rw [hstep]
      simp [htrials]
  · intro j digest us ha _ hus
    obtain ⟨-, rfl⟩ := Action.record.inj ha
    rw [hread] at hus
    obtain rfl := Except.ok.inj hus
    exact ⟨fun _ => hroom, fun _ => ⟨v, hret⟩⟩

/-- A call that is refused. -/
lemma step_refused {w : World} {vs : List TrialVerdict} (h : Holds w.file vs) {i : ℕ}
    {l : TrialLedger} (hl : w.ledgers i = some l) {paramsHash : Text}
    (hno : ¬ (paramsHash ≠ [] ∧ vs.length < maxAllowedTrials)) :
    Holds (step w (.record i paramsHash)).file (vs ++ verdict w (.record i paramsHash)) ∧
      Sound w (.record i paramsHash) := by
  have hread : readLedger w.file = .ok vs := (readLedger_getD w.file).trans h.read
  obtain ⟨e, hrec⟩ := recordTrial_refused h l hno
  have hret : returned w (.record i paramsHash) = some (.error e) := by
    simp [returned, hl, hrec]
  have hfile : (step w (.record i paramsHash)).file = w.file := by
    simp [step, hl, hrec]
  refine ⟨?_, ⟨fun v hv => ?_, fun _ => hfile, ?_⟩⟩
  · rw [hfile, verdict, hret, List.append_nil]
    exact h
  · rw [hret] at hv
    exact nomatch hv
  · intro j digest us ha _ hus
    obtain ⟨-, rfl⟩ := Action.record.inj ha
    rw [hread] at hus
    obtain rfl := Except.ok.inj hus
    refine ⟨fun ⟨v, hv⟩ => ?_, fun hroom => absurd hroom hno⟩
    rw [hret] at hv
    exact nomatch hv

theorem step_holds {w : World} {vs : List TrialVerdict} (h : Holds w.file vs) (a : Action) :
    Holds (step w a).file (vs ++ verdict w a) ∧ Sound w a := by
  cases a with
  | new i runId =>
    have hfile : (step w (.new i runId)).file = w.file := by
      unfold step
      dsimp only
      split <;> rfl
    refine ⟨?_, ⟨fun v hv => ?_, fun _ => hfile, fun _ _ _ ha => nomatch ha⟩⟩
    · rw [hfile, verdict, returned_new, List.append_nil]
      exact h
    · rw [returned_new] at hv
      exact nomatch hv
  | record i paramsHash =>
    rcases hl : w.ledgers i with - | l
    · have hstep : step w (.record i paramsHash) = w := by simp [step, hl]
      have hret : returned w (.record i paramsHash) = none := by simp [returned, hl]
      refine ⟨?_, ⟨fun v hv => ?_, fun _ => by rw [hstep], ?_⟩⟩
      · rw [hstep, verdict, hret, List.append_nil]
        exact h
      · rw [hret] at hv
        exact nomatch hv
      · intro j digest us ha hsome
        obtain ⟨rfl, -⟩ := Action.record.inj ha
        rw [hl] at hsome
        cases hsome
    · by_cases hroom : paramsHash ≠ [] ∧ vs.length < maxAllowedTrials
      · exact step_recorded h hl hroom
      · exact step_refused h hl hroom

/-- **A whole run.** The file holds what it held and the verdicts returned since, in order. -/
theorem run_holds {w : World} {vs : List TrialVerdict} (h : Holds w.file vs) (as : List Action) :
    Holds (Runs.after step w as).file (vs ++ verdicts w as) ∧ Runs.Along step Sound w as := by
  induction as generalizing w vs with
  | nil =>
    rw [verdicts, List.append_nil]
    exact ⟨h, trivial⟩
  | cons a as ih =>
    obtain ⟨hstep, hsound⟩ := step_holds h a
    obtain ⟨hrun, hrest⟩ := ih hstep
    rw [verdicts_cons, ← List.append_assoc]
    exact ⟨hrun, hsound, hrest⟩

/-- **Every trial counts once.** In every interleaving of calls on a fresh path the file reads
back as the verdicts the calls returned, in order, numbered from one with no gap and at most
fifty, the first twenty eligible. A call of an instance for a digest is recorded while the file
has room; a call that returns no verdict leaves the file, and an instance made on the path starts
with that same list. -/
theorem trials_counted_once (as : List Action) :
    readLedger (Runs.after step .init as).file = .ok (verdicts .init as) ∧
    (verdicts .init as).length ≤ maxAllowedTrials ∧
    (∀ k v, (verdicts .init as)[k]? = some v → v.trialNumber = k + 1 ∧
      (v.eligibleForPromotion = true ↔ v.trialNumber ≤ maxEligibleTrials)) ∧
    Runs.Along step Sound .init as ∧
    ∀ runId, runId ≠ [] → newLedger runId (Runs.after step .init as).file =
      .ok ⟨runId, verdicts .init as⟩ := by
  have hinit : Holds World.init.file [] := ⟨rfl, trivial, Nat.zero_le _⟩
  obtain ⟨h, hsound⟩ := run_holds hinit as
  rw [List.nil_append] at h
  have hread := (readLedger_getD (Runs.after step .init as).file).trans h.read
  refine ⟨hread, h.bounded, fun k v hk => ?_, hsound, fun runId hne => ?_⟩
  · obtain ⟨hn, -, he⟩ := h.numbered.get k v hk
    refine ⟨by omega, ?_⟩
    rw [he, decide_eq_true_eq, hn]
  · rw [newLedger, if_neg hne, hread]
    rfl

/-- Two instances on one path, and a call of each. -/
def sampleCalls : List Action :=
  [.new 0 (text "run"), .new 1 (text "run"), .record 1 (text "a1"), .record 0 (text "b2")]

/-- Both trials are recorded, though neither instance has seen the other's. -/
theorem trials_counted_once_sample :
    ∃ u v, readLedger (Runs.after step .init sampleCalls).file = .ok [u, v] ∧
      (u.trialNumber = 1 ∧ u.paramsHash = text "a1") ∧
      (v.trialNumber = 2 ∧ v.paramsHash = text "b2") := by
  obtain ⟨-, -, -, ⟨-, -, hfirst, hsecond, -⟩, -⟩ := trials_counted_once sampleCalls
  obtain ⟨u, hu⟩ := (hfirst.counts 1 (text "a1") [] rfl rfl rfl).mpr (by decide)
  obtain ⟨i, us, ha, hread, hnum, hfile, -⟩ := hfirst.returns u hu
  obtain ⟨-, hdigest⟩ := Action.record.inj ha
  obtain rfl : [] = us := Except.ok.inj hread
  obtain ⟨v, hv⟩ := (hsecond.counts 0 (text "b2") [u] rfl rfl hfile).mpr
    ⟨by decide, by simp [maxAllowedTrials]⟩
  obtain ⟨j, vs, hb, hread', hnum', hfile', -⟩ := hsecond.returns v hv
  obtain ⟨-, hdigest'⟩ := Action.record.inj hb
  rw [hfile] at hread'
  obtain rfl := Except.ok.inj hread'
  exact ⟨u, v, hfile', ⟨hnum, hdigest.symm⟩, hnum', hdigest'.symm⟩

end Trials

end PumpGrok
