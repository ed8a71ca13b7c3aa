import PumpGrok.Core.RateLimit
import PumpGrok.Core.Types
import PumpGrok.Lib.Dict
import PumpGrok.Lib.Prog

/-!
The tool registry: specs of tools, the manifests of the seats with what they are granted, and the
lookup that grants a tool to a seat or refuses it, with an audit row either way.
-/

namespace PumpGrok

inductive SideEffect where
  | read
  | paperWrite
  | liveWrite
  deriving DecidableEq

namespace SideEffect

def rank : SideEffect → ℕ
  | read => 0
  | paperWrite => 1
  | liveWrite => 2

def exceeds (a b : SideEffect) : Bool := b.rank < a.rank

end SideEffect

/-- The highest side effect a seat may be granted. -/
def maxGrantableSideEffect : SideEffect := .paperWrite

/-- A tool. Writes are idempotent and are not retried, and reads need no approval. -/
structure ToolSpec where
  name : Text
  sideEffect : SideEffect
  attempts : ℕ := 1
  rateLimitKey : Text
  requiresApproval : Bool := false
  idempotent : Bool := false
  attempts_ge : 1 ≤ attempts
  attempts_le : attempts ≤ 10
  writes_idempotent : sideEffect ≠ .read → idempotent = true
  reads_unapproved : sideEffect = .read → requiresApproval = false
  retry_read_only : 1 < attempts → sideEffect = .read
  deriving DecidableEq

structure ToolGrant where
  name : Text
  sideEffect : SideEffect
  never_live : sideEffect.exceeds maxGrantableSideEffect = false
  deriving DecidableEq

/-! ### Manifests -/

inductive ManifestError where
  | notWriter
  | writesUndeclared
  | killSwitch
  | alertRelayed
  | ledgerWrite
  deriving DecidableEq

def paperWriters : List Text := ["bot-04-sniper".toList, "bot-06-exit".toList]

/-- The first rule of the seats that a grant breaks. -/
def checkGrant (id : Text) (writesToExchange : Bool) (g : ToolGrant) : Option ManifestError :=
  if "exec.".toList <+: g.name ∧ g.sideEffect = .paperWrite ∧ id ∉ paperWriters then
    some .notWriter
  else if "exec.".toList <+: g.name ∧ g.sideEffect = .paperWrite ∧ writesToExchange = false then
    some .writesUndeclared
  else if g.name = "risk.kill_switch".toList ∧ id ≠ "bot-02-risk".toList then some .killSwitch
  else if g.name = "notify.alert".toList ∧
      (id = "bot-02-risk".toList ∨ id = "bot-05-rug".toList) then some .alertRelayed
  else if g.name = "portfolio.ledger_write".toList then some .ledgerWrite
  else none

/-- A seat, with grants that break no rule. -/
structure BotManifest where
  id : Text
  allowedTools : List ToolGrant
  writesToExchange : Bool := false
  checked : ∀ g ∈ allowedTools, checkGrant id writesToExchange g = none

def BotManifest.grantFor (bot : BotManifest) (toolName : Text) : Option ToolGrant :=
  bot.allowedTools.find? (·.name = toolName)

/-! ### Lookup -/

inductive AuditReason where
  | ok
  | unknownTool
  | liveWriteNeverResolvable
  | notInRoster
  | exceedsGrant
  | exceedsRequestedMax
  | noGrantedToolInNamespace
  deriving DecidableEq

/-- One row per lookup. -/
structure GrantAudit where
  at_ : ℚ
  bot : Text
  tool : Text
  requestedSideEffect : SideEffect
  allowed : Bool
  reason : AuditReason
  deriving DecidableEq

inductive ToolError where
  | valueError
  | liveGate (tool bot : Text)
  | permissionDenied (tool bot : Text) (reason : AuditReason)
  | refused
  | timeout
  | raised
  deriving DecidableEq

structure ToolRegistry where
  tools : Dict Text ToolSpec := ∅
  limiters : Dict Text RateLimiter := ∅
  audit : List GrantAudit := []

structure Refusal where
  tool : Text
  requested : SideEffect
  reason : AuditReason

/-- The error of a refusal: a live write is refused by its own. -/
def Refusal.error (x : Refusal) (bot : BotManifest) : ToolError :=
  if x.reason = .liveWriteNeverResolvable then .liveGate x.tool bot.id
  else .permissionDenied x.tool bot.id x.reason

/-- The first candidate that is granted; a candidate asked for by its own name is refused with its
reason, another is passed over, and a live write refuses the whole lookup. -/
def resolve (bot : BotManifest) (capability : Text) (maxSideEffect : SideEffect) :
    List ToolSpec → Except Refusal ToolSpec
  | [] => .error ⟨capability, maxSideEffect, .noGrantedToolInNamespace⟩
  | spec :: rest =>
    if spec.sideEffect = .liveWrite then
      .error ⟨spec.name, spec.sideEffect, .liveWriteNeverResolvable⟩
    else
      match bot.grantFor spec.name with
      | none =>
        if capability = spec.name then .error ⟨spec.name, spec.sideEffect, .notInRoster⟩
        else resolve bot capability maxSideEffect rest
      | some grant =>
        if spec.sideEffect.exceeds grant.sideEffect then
          if capability = spec.name then .error ⟨spec.name, spec.sideEffect, .exceedsGrant⟩
          else resolve bot capability maxSideEffect rest
        else if spec.sideEffect.exceeds maxSideEffect then
          if capability = spec.name then .error ⟨spec.name, spec.sideEffect, .exceedsRequestedMax⟩
          else resolve bot capability maxSideEffect rest
        else .ok spec

namespace ToolRegistry

def defaultPerMinute : ℚ := 60

def register (spec : ToolSpec) : Prog ToolRegistry ToolError Unit := fun r =>
  if r.tools.get spec.name = none then (.ok (), { r with tools := r.tools.set spec.name spec })
  else (.error .valueError, r)

/-- The tools of that name or in that namespace, by name. -/
def candidates (r : ToolRegistry) (capability : Text) : List ToolSpec :=
  (r.tools.entries.filterMap fun x =>
    if x.1 = capability ∨ capability ++ ".".toList <+: x.1 then some x.2 else none).mergeSort
    fun a b => a.name ≤ b.name

/-- One limiter for a key, made when it is first asked for. -/
def limiterFor (now : ℚ) (key : Text) (r : ToolRegistry) : ToolRegistry :=
  match r.limiters.get key with
  | some _ => r
  | none => { r with limiters := r.limiters.set key (.create defaultPerMinute none now) }

def audited (row : GrantAudit) (r : ToolRegistry) : ToolRegistry :=
  { r with audit := r.audit ++ [row] }

/-- Grant a tool to a seat, or refuse it. -/
def find (now : ℚ) (capability : Text) (maxSideEffect : SideEffect) (bot : BotManifest) :
    Prog ToolRegistry ToolError ToolSpec := fun r =>
  let found :=
    if r.candidates capability = [] then .error ⟨capability, maxSideEffect, .unknownTool⟩
    else resolve bot capability maxSideEffect (r.candidates capability)
  match found with
  | .error x => (.error (x.error bot), r.audited
      { at_ := now
        bot := bot.id
        tool := x.tool
        requestedSideEffect := x.requested
        allowed := false
        reason := x.reason })
  | .ok spec => (.ok spec, (r.audited
      { at_ := now
        bot := bot.id
        tool := spec.name
        requestedSideEffect := spec.sideEffect
        allowed := true
        reason := .ok }).limiterFor now spec.rateLimitKey)

end ToolRegistry

/-! ### What a lookup grants -/

/-- The seat holds the tool: by name, and with no less than its side effect. -/
def BotManifest.Holds (bot : BotManifest) (spec : ToolSpec) : Prop :=
  ∃ g ∈ bot.allowedTools, g.name = spec.name ∧ spec.sideEffect.exceeds g.sideEffect = false

section Resolve

variable {bot : BotManifest} {capability : Text} {maxSideEffect : SideEffect} {spec : ToolSpec}

lemma grantFor_some {name : Text} {g : ToolGrant} (h : bot.grantFor name = some g) :
    g ∈ bot.allowedTools ∧ g.name = name :=
  ⟨List.mem_of_find?_eq_some h, by simpa using List.find?_some h⟩

/-- **A granted tool** is a candidate that the seat holds, within what was asked for. -/
theorem resolve_ok {specs : List ToolSpec}
    (h : resolve bot capability maxSideEffect specs = .ok spec) :
    spec ∈ specs ∧ bot.Holds spec ∧ spec.sideEffect.exceeds maxSideEffect = false := by
  induction specs with
  | nil => cases h
  | cons t rest ih =>
    have hrest : resolve bot capability maxSideEffect rest = .ok spec →
        spec ∈ t :: rest ∧ bot.Holds spec ∧ spec.sideEffect.exceeds maxSideEffect = false :=
      fun h => ⟨List.mem_cons_of_mem _ (ih h).1, (ih h).2⟩
    unfold resolve at h
    by_cases hlive : t.sideEffect = .liveWrite
    · rw [if_pos hlive] at h
      cases h
    rw [if_neg hlive] at h
    rcases hg : bot.grantFor t.name with - | g
    · simp only [hg] at h
      split_ifs at h
      exact hrest h
    · simp only [hg] at h
      obtain ⟨hmem, hname⟩ := grantFor_some hg
      split_ifs at h with h₁ h₂ h₃ h₄
      · exact hrest h
      · exact hrest h
      · obtain rfl := Except.ok.inj h
        exact ⟨List.mem_cons_self, ⟨g, hmem, hname, by simpa using h₁⟩, by simpa using h₃⟩

/-- **A lookup** grants a tool that the seat holds, or raises; an audit row tells which. -/
theorem find_run (now : ℚ) (capability : Text) (maxSideEffect : SideEffect) (bot : BotManifest)
    (r : ToolRegistry) :
    (∃ x row, ToolRegistry.find now capability maxSideEffect bot r = (.error x, r.audited row) ∧
      row.allowed = false) ∨
    ∃ spec row, ToolRegistry.find now capability maxSideEffect bot r =
        (.ok spec, (r.audited row).limiterFor now spec.rateLimitKey) ∧
      row.allowed = true ∧ row.bot = bot.id ∧ row.tool = spec.name ∧
      bot.Holds spec ∧ spec.sideEffect.exceeds maxSideEffect = false := by
  unfold ToolRegistry.find
  by_cases hc : r.candidates capability = []
  · simp only [hc, if_true]
    exact .inl ⟨_, _, rfl, rfl⟩
  · simp only [hc, if_false]
    rcases hr : resolve bot capability maxSideEffect (r.candidates capability) with x | spec
    · exact .inl ⟨_, _, rfl, rfl⟩
    · exact .inr ⟨spec, _, rfl, rfl, rfl, rfl, (resolve_ok hr).2⟩

end Resolve

/-! ### What a seat may hold -/

/-- What the rules of the seats leave of a tool: no live write, no paper write of `exec` but for the
two seats that declare it, the kill switch for the risk seat alone, and the ledger for none. -/
structure SeatMayRun (id : Text) (writesToExchange : Bool) (spec : ToolSpec) : Prop where
  not_live : spec.sideEffect ≠ .liveWrite
  writer : "exec.".toList <+: spec.name → spec.sideEffect = .paperWrite →
    id ∈ paperWriters ∧ writesToExchange = true
  kill_switch : spec.name = "risk.kill_switch".toList → id = "bot-02-risk".toList
  alert : spec.name = "notify.alert".toList →
    id ≠ "bot-02-risk".toList ∧ id ≠ "bot-05-rug".toList
  ledger : spec.name ≠ "portfolio.ledger_write".toList

lemma SideEffect.eq_of_not_exceeds {a b : SideEffect} (h : a.exceeds b = false)
    (hb : b.exceeds maxGrantableSideEffect = false) :
    a ≠ .liveWrite ∧ (a = .paperWrite → b = .paperWrite) := by
  cases a <;> cases b <;> simp_all [SideEffect.exceeds, SideEffect.rank, maxGrantableSideEffect]

/-- **What a seat holds, it may run.** -/
theorem BotManifest.Holds.mayRun {bot : BotManifest} {spec : ToolSpec} (h : bot.Holds spec) :
    SeatMayRun bot.id bot.writesToExchange spec := by
  obtain ⟨g, hg, hname, hse⟩ := h
  have hcheck := bot.checked g hg
  unfold checkGrant at hcheck
  split_ifs at hcheck with h₁ h₂ h₃ h₄ h₅
  obtain ⟨hlive, hpaper⟩ := SideEffect.eq_of_not_exceeds hse g.never_live
  rw [hname] at h₁ h₂ h₃ h₄ h₅
  refine ⟨hlive, fun hx hw => ?_, fun hk => ?_, fun ha => ?_, h₅⟩
  · constructor
    · by_contra hid
      exact h₁ ⟨hx, hpaper hw, hid⟩
    · by_contra hid
      exact h₂ ⟨hx, hpaper hw, by simpa using hid⟩
  · by_contra hid
    exact h₃ ⟨hk, hid⟩
  · exact ⟨fun hid => h₄ ⟨ha, .inl hid⟩, fun hid => h₄ ⟨ha, .inr hid⟩⟩

end PumpGrok
