import PumpGrok.Core.Types
import PumpGrok.Lib.Dict

/-!
The safety report: the checks a caller selects, the readers they need, a row for each check, and the
score and verdict of the rows. Readings and thresholds are exact numbers.
-/

namespace PumpGrok

namespace Safety

/-! ### Check ids -/

inductive CheckId where
  | mintAuthority
  | freezeAuthority
  | lpStatus
  | transferTax
  | honeypot
  | top10Concentration
  | bundlerCluster
  | deployerHistory
  | token2022Extensions
  | liquidityDepth
  deriving DecidableEq

def CheckId.text : CheckId → Text
  | .mintAuthority => "mint_authority".toList
  | .freezeAuthority => "freeze_authority".toList
  | .lpStatus => "lp_status".toList
  | .transferTax => "transfer_tax".toList
  | .honeypot => "honeypot".toList
  | .top10Concentration => "top10_concentration".toList
  | .bundlerCluster => "bundler_cluster".toList
  | .deployerHistory => "deployer_history".toList
  | .token2022Extensions => "token2022_extensions".toList
  | .liquidityDepth => "liquidity_depth".toList

def checkIds : List CheckId :=
  [.mintAuthority, .freezeAuthority, .lpStatus, .transferTax, .honeypot, .top10Concentration,
    .bundlerCluster, .deployerHistory, .token2022Extensions, .liquidityDepth]

def requiredIds : List CheckId :=
  [.mintAuthority, .freezeAuthority, .lpStatus, .top10Concentration, .deployerHistory,
    .token2022Extensions, .liquidityDepth]

/-- Blind by construction: no source is wired. -/
def advisoryIds : List CheckId := [.transferTax, .honeypot, .bundlerCluster]

/-- Blind rows of these are advisory while no paid provider is recorded. -/
def holderAdvisoryPair : List CheckId := [.top10Concentration, .deployerHistory]

/-! ### Thresholds -/

inductive ThresholdKey where
  | transferTaxHardFailPct
  | transferTaxWarnPct
  | top10ConcentrationWarnPct
  | top10ConcentrationFailPct
  | liquidityMultipleMin
  | liquidityMultipleRecommended
  | lpLockMinDays
  | creatorShareVeto
  | top5ShareVeto
  | killBelowScore
  | conditionalBelowScore
  deriving DecidableEq

def ThresholdKey.text : ThresholdKey → Text
  | .transferTaxHardFailPct => "transfer_tax_hard_fail_pct".toList
  | .transferTaxWarnPct => "transfer_tax_warn_pct".toList
  | .top10ConcentrationWarnPct => "top10_concentration_warn_pct".toList
  | .top10ConcentrationFailPct => "top10_concentration_fail_pct".toList
  | .liquidityMultipleMin => "liquidity_multiple_min".toList
  | .liquidityMultipleRecommended => "liquidity_multiple_recommended".toList
  | .lpLockMinDays => "lp_lock_min_days".toList
  | .creatorShareVeto => "creator_share_veto".toList
  | .top5ShareVeto => "top5_share_veto".toList
  | .killBelowScore => "kill_below_score".toList
  | .conditionalBelowScore => "conditional_below_score".toList

def knownThresholdKeys : List ThresholdKey :=
  [.transferTaxHardFailPct, .transferTaxWarnPct, .top10ConcentrationWarnPct,
    .top10ConcentrationFailPct, .liquidityMultipleMin, .liquidityMultipleRecommended,
    .lpLockMinDays, .creatorShareVeto, .top5ShareVeto, .killBelowScore, .conditionalBelowScore]

lemma mem_knownThresholdKeys (k : ThresholdKey) : k ∈ knownThresholdKeys := by
  cases k <;> decide

/-- A floor, or a lock period. Every other field is a ceiling. -/
def higherIsStricter : ThresholdKey → Bool
  | .liquidityMultipleMin | .liquidityMultipleRecommended | .lpLockMinDays | .killBelowScore
  | .conditionalBelowScore => true
  | _ => false

/-- Thresholds that passed validation. -/
structure Thresholds where
  value : ThresholdKey → ℚ
  nonneg : ∀ k, 0 ≤ value k

def defaultThreshold : ThresholdKey → ℚ
  | .transferTaxHardFailPct => 10
  | .transferTaxWarnPct => 5
  | .top10ConcentrationWarnPct => 20
  | .top10ConcentrationFailPct => 25
  | .liquidityMultipleMin => 10
  | .liquidityMultipleRecommended => 20
  | .lpLockMinDays => 180
  | .creatorShareVeto => 1 / 4
  | .top5ShareVeto => 4 / 5
  | .killBelowScore => 40
  | .conditionalBelowScore => 70

/-- Every default passes its own check. -/
def Thresholds.default : Thresholds where
  value := defaultThreshold
  nonneg k := by cases k <;> norm_num [defaultThreshold]

inductive SafetyError where
  | unknownThresholds (keys : List Text)
  | unknownChecks (ids : List Text)
  | invalidThreshold
  deriving DecidableEq

def Thresholds.validate (value : ThresholdKey → ℚ) : Except SafetyError Thresholds :=
  if h : ∀ k ∈ knownThresholdKeys, 0 ≤ value k then
    .ok { value := value, nonneg := fun k => h k (mem_knownThresholdKeys k) }
  else .error .invalidThreshold

def stricter (key : ThresholdKey) (configured requested : ℚ) : ℚ :=
  if higherIsStricter key then max configured requested else min configured requested

/-- Merge one entry of the override. -/
def mergeEntry (merged : ThresholdKey → ℚ) (e : Text × ℚ) : ThresholdKey → ℚ := fun k =>
  if k.text = e.1 then stricter k (merged k) e.2 else merged k

/-- The thresholds in effect: an override can tighten the configured ones. -/
def resolveThresholds (override : Dict Text ℚ) (base : Option Thresholds) :
    Except SafetyError Thresholds :=
  if override.entries = [] then .ok (base.getD Thresholds.default)
  else
    let unknown := override.keys.filter (· ∉ knownThresholdKeys.map ThresholdKey.text)
    if unknown ≠ [] then .error (.unknownThresholds (unknown.insertionSort (· ≤ ·)))
    else
      match base with
      | none => Thresholds.validate fun k => (override.get k.text).getD (defaultThreshold k)
      | some base => Thresholds.validate (override.entries.foldl mergeEntry base.value)

/-! ### Readings -/

structure AuthReading where
  hasMintAuthority : Bool
  hasFreezeAuthority : Bool

inductive LpStage where
  | bondingCurve
  | graduated
  | unknown
  deriving DecidableEq

structure TopReading where
  top5Share : ℚ
  top10Share : ℚ

structure DeployerReading where
  isKnownBad : Bool := false
  rugs : ℤ := 0
  tokensSeen : ℤ

/-- What each reader answers when it is called; `none` when it fails. -/
structure Readers where
  auth : Option AuthReading
  lp : Option LpStage
  extensions : Option (List Text)
  top : Option TopReading
  deployer : Option DeployerReading
  liquidityLamports : Option ℤ

structure ScoreReportIn where
  mint : Mint
  curveAccount : Text
  creator : Option Creator := none
  intendedSizeLamports : ℕ := 0
  thresholds : Dict Text ℚ := ∅
  checks : Option (List Text) := none

/-- Run the readers the runnable checks need. -/
def readAll (inp : ScoreReportIn) (readers : Readers) (runnable : List CheckId) : Readers where
  auth := if .mintAuthority ∈ runnable ∨ .freezeAuthority ∈ runnable then readers.auth else none
  lp := if .lpStatus ∈ runnable then readers.lp else none
  extensions := if .token2022Extensions ∈ runnable then readers.extensions else none
  top := if .top10Concentration ∈ runnable then readers.top else none
  deployer := if .deployerHistory ∈ runnable ∧ inp.creator ≠ none then readers.deployer else none
  liquidityLamports := if .liquidityDepth ∈ runnable then readers.liquidityLamports else none

/-! ### Checks -/

inductive Status where
  | pass
  | warn
  | fail
  | blind
  deriving DecidableEq

/-- A value or a threshold shown in a row. -/
inductive Shown where
  | flag (b : Bool)
  | text (t : Text)
  | number (q : ℚ)
  | infinite
  deriving DecidableEq

inductive Why where
  | states (text : Text)
  | topHoldersOwn (pct : ℚ)
  | launched (seen : ℤ)
  | extensions (count : ℕ)
  | multiple (m : ℚ)
  deriving DecidableEq

structure CheckResult where
  id : CheckId
  status : Status
  value : Option Shown
  threshold : Option Shown
  weight : ℚ
  reason : Why
  deriving DecidableEq

/-- A live authority fails. -/
def checkAuthority (id : CheckId) (live : Bool) (whenLive whenRevoked : String) : CheckResult where
  id := id
  status := if live then .fail else .pass
  value := some (.flag live)
  threshold := some (.text "revoked".toList)
  weight := 15 / 100
  reason := .states (if live then whenLive.toList else whenRevoked.toList)

def checkMintAuthority (auth : AuthReading) : CheckResult :=
  checkAuthority .mintAuthority auth.hasMintAuthority
    "mint authority is live and can dilute holders"
    "mint authority revoked; supply is fixed"

def checkFreezeAuthority (auth : AuthReading) : CheckResult :=
  checkAuthority .freezeAuthority auth.hasFreezeAuthority
    "freeze authority is live and can lock holder accounts"
    "freeze authority revoked; accounts cannot be frozen"

def LpStage.text : LpStage → Text
  | .bondingCurve => "bonding_curve".toList
  | .graduated => "graduated".toList
  | .unknown => "unknown".toList

def checkLpStatus (stage : LpStage) : CheckResult where
  id := .lpStatus
  status := match stage with
    | .bondingCurve => .pass
    | .graduated => .warn
    | .unknown => .blind
  value := some (.text stage.text)
  threshold := some (.text "bonding_curve".toList)
  weight := 15 / 100
  reason := .states (match stage with
    | .bondingCurve => "token still on the bonding curve; no LP to lock".toList
    | .graduated => "graduated to a pool; lock/burn state is unwired in Phase 3".toList
    | .unknown => "liquidity stage could not be determined".toList)

def checkTop10Concentration (top : TopReading) (t : Thresholds) : CheckResult where
  id := .top10Concentration
  status :=
    if t.value .top10ConcentrationFailPct ≤ top.top10Share * 100 then .fail
    else if t.value .top10ConcentrationWarnPct ≤ top.top10Share * 100 then .warn
    else .pass
  value := some (.number (top.top10Share * 100))
  threshold := some (.number (t.value .top10ConcentrationFailPct))
  weight := 15 / 100
  reason := .topHoldersOwn (top.top10Share * 100)

def checkDeployerHistory (dep : DeployerReading) : CheckResult :=
  if dep.isKnownBad = true ∨ 0 < dep.rugs then
    { id := .deployerHistory
      status := .fail
      value := some (.flag true)
      threshold := some (.text "no known rugs".toList)
      weight := 10 / 100
      reason := .states "creator record shows known-bad history".toList }
  else
    { id := .deployerHistory
      status := if 3 ≤ dep.tokensSeen then .warn else .pass
      value := some (.number dep.tokensSeen)
      threshold := some (.number 3)
      weight := 10 / 100
      reason := if 3 ≤ dep.tokensSeen then .launched dep.tokensSeen
        else .states "no known-bad creator history in the window".toList }

def checkToken2022Extensions (extensions : List Text) : CheckResult where
  id := .token2022Extensions
  status := if extensions = [] then .pass else .warn
  value := some (.number extensions.length)
  threshold := some (.text "none".toList)
  weight := 5 / 100
  reason := if extensions = [] then .states "no token-2022 extensions".toList
    else .extensions extensions.length

def checkLiquidityDepth (liquidity : ℤ) (intendedSize : ℕ) (t : Thresholds) : CheckResult :=
  let row (status : Status) (value : Shown) (reason : Why) : CheckResult :=
    { id := .liquidityDepth
      status := status
      value := some value
      threshold := some (.number (t.value .liquidityMultipleMin))
      weight := 15 / 100
      reason := reason }
  let multiple : ℚ := liquidity / intendedSize
  if liquidity ≤ 0 then
    row .fail (.number 0) (.states "no measurable liquidity for the intended size".toList)
  else if intendedSize = 0 then
    row .pass .infinite (.states "no intended size; depth check vacuous".toList)
  else if multiple < t.value .liquidityMultipleMin then
    row .fail (.number multiple) (.multiple multiple)
  else if multiple < t.value .liquidityMultipleRecommended then
    row .warn (.number multiple) (.multiple multiple)
  else row .pass (.number multiple) (.multiple multiple)

/-! ### Rows -/

inductive EvidenceSource where
  | solanaRpc
  | unwired
  deriving DecidableEq

structure Evidence where
  check : CheckId
  source : EvidenceSource
  deriving DecidableEq

/-- A row with the evidence it leaves. -/
abbrev RowEvidence := CheckResult × List Evidence

def blindRow (id : CheckId) (weight : ℚ) (reason : String) : CheckResult where
  id := id
  status := .blind
  value := none
  threshold := none
  weight := weight
  reason := .states reason.toList

/-- Score a check from its reader, or blind it; a live reading leaves evidence. -/
def readerRow {ρ : Type} (id : CheckId) (reading : Option ρ) (evaluate : ρ → CheckResult)
    (weight : ℚ) (blindReason : String) : RowEvidence :=
  match reading with
  | none => (blindRow id weight blindReason, [])
  | some r => (evaluate r, [{ check := id, source := .solanaRpc }])

/-- The rows of the checks that have a reader, in the order of the report. -/
def readerRows (inp : ScoreReportIn) (runnable : List CheckId) (readings : Readers)
    (active : Thresholds) : List RowEvidence :=
  (if .mintAuthority ∈ runnable then
    [readerRow .mintAuthority readings.auth checkMintAuthority (15 / 100)
      "mint authority unreadable"] else []) ++
  (if .freezeAuthority ∈ runnable then
    [readerRow .freezeAuthority readings.auth checkFreezeAuthority (15 / 100)
      "freeze authority unreadable"] else []) ++
  (if .lpStatus ∈ runnable then
    [readerRow .lpStatus readings.lp checkLpStatus (15 / 100) "curve account unreadable"]
    else []) ++
  (if .top10Concentration ∈ runnable then
    [readerRow .top10Concentration readings.top (checkTop10Concentration · active) (15 / 100)
      "holder sample unreadable"] else []) ++
  (if .deployerHistory ∈ runnable then
    [if inp.creator = none then
      (blindRow .deployerHistory (10 / 100) "creator not supplied; window unscanned", [])
    else
      readerRow .deployerHistory readings.deployer checkDeployerHistory (10 / 100)
        "creator window unreadable"] else []) ++
  (if .token2022Extensions ∈ runnable then
    [readerRow .token2022Extensions readings.extensions checkToken2022Extensions (5 / 100)
      "mint metadata unreadable"] else []) ++
  (if .liquidityDepth ∈ runnable then
    [readerRow .liquidityDepth readings.liquidityLamports
      (checkLiquidityDepth · inp.intendedSizeLamports active) (15 / 100) "liquidity unreadable"]
    else [])

def advisoryRows (wanted : List CheckId) : List RowEvidence :=
  (checkIds.filter fun c => c ∈ advisoryIds ∧ c ∈ wanted).map fun c =>
    (blindRow c 0 "no Phase-3 data source; advisory blind", [{ check := c, source := .unwired }])

/-! ### Score and verdict -/

def penalty : Status → ℤ
  | .warn => 10
  | .fail => 25
  | .pass | .blind => 0

def score (rows : List CheckResult) : ℤ :=
  max 0 (rows.foldl (fun s row => s - penalty row.status) 100)

inductive Verdict where
  | clear
  | conditional
  | kill
  deriving DecidableEq

def verdict (score : ℤ) (forcedKill : Bool) (active : Thresholds) : Verdict :=
  if forcedKill = true ∨ (score : ℚ) < active.value .killBelowScore then .kill
  else if (score : ℚ) < active.value .conditionalBelowScore then .conditional
  else .clear

structure ScoreReportOut where
  score : ℤ
  verdictRecommendation : Verdict
  hardVeto : Bool
  checks : List CheckResult
  blindChecks : List CheckId
  advisoryBlindChecks : List CheckId
  evidence : List Evidence
  thresholdsUsed : ThresholdKey → ℚ

/-- The checks the caller wants: all when `checks` is null, none when it is empty. -/
def wantedChecks (inp : ScoreReportIn) : List CheckId :=
  match inp.checks with
  | none => checkIds
  | some texts => checkIds.filter fun c => c.text ∈ texts

def unknownChecks (inp : ScoreReportIn) : List Text :=
  ((inp.checks.getD []).filter (· ∉ checkIds.map CheckId.text)).dedup.insertionSort (· ≤ ·)

/-- The holder-pair exemption is in force while no paid provider is recorded. -/
def exempt (paidRecorded : Bool) (c : CheckId) : Bool := !paidRecorded && c ∈ holderAdvisoryPair

/-- The report over its rows. -/
def reportOf (readings : Readers) (rows : List RowEvidence) (active : Thresholds)
    (paidRecorded : Bool) : ScoreReportOut :=
  let checks := rows.map Prod.fst
  let blind := checks.filter fun r => r.status = .blind
  let hardVeto := readings.top.any fun top => active.value .top5ShareVeto < top.top5Share
  let blindRequired := blind.filter fun r => r.id ∈ requiredIds ∧ exempt paidRecorded r.id = false
  { score := score checks
    verdictRecommendation := verdict (score checks) (hardVeto || blindRequired ≠ []) active
    hardVeto := hardVeto
    checks := checks
    blindChecks := blind.map CheckResult.id
    advisoryBlindChecks := (blind.filter fun r => exempt paidRecorded r.id).map CheckResult.id
    evidence := rows.flatMap Prod.snd
    thresholdsUsed := active.value }

def runScoreReport (inp : ScoreReportIn) (readers : Readers) (thresholds : Option Thresholds)
    (paidRecorded : Bool) : Except SafetyError ScoreReportOut := do
  let active ← resolveThresholds inp.thresholds thresholds
  if unknownChecks inp ≠ [] then .error (.unknownChecks (unknownChecks inp))
  let runnable := (wantedChecks inp).filter (· ∉ advisoryIds)
  let readings := readAll inp readers runnable
  .ok (reportOf readings
    (readerRows inp runnable readings active ++ advisoryRows (wantedChecks inp)) active
    paidRecorded)

end Safety

end PumpGrok
