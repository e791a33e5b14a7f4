import OneOS.Foundation.CStrings
import OneOS.Foundation.Runs
import OneOS.Foundation.Table

/-!
# The firewall

The rules of `advanced-networking/network_security.c`. The table of rules only grows: a rule that is
removed is marked as not enabled, and the same mark switches the whole firewall off and on. So
`security_enable_firewall` brings every removed rule back. A packet is checked against the rules in
order, and a rule that matches it decides when it accepts or drops the packet; `REJECT` and `LOG`
rules are passed over.

Whether a rule was removed, and which rules are to be in force when the firewall is enabled again,
is not kept in the table and is recorded beside the run (`RuleHistory`). `removedRulesStay_iff` says
when removed rules stay out of force, enabling gives back what was in force, and every packet is
decided by the first enabled rule that matches it: when the firewall is not enabled after a rule was
removed, and that first rule is neither a `REJECT` nor a `LOG` rule.

Left out are the checks of pointers, the counts of packets of a rule, and the certificates, ciphers
and alerts of the file, which have nothing to do with the rules.
-/

set_option autoImplicit false
set_option relaxedAutoImplicit false

namespace OneOS.Networking

open Foundation

/-! ### Rules -/

/-- `MAX_FIREWALL_RULES`. -/
def maxFirewallRules : ℕ := 1024

/-- `FirewallAction`. -/
inductive FirewallAction
  | accept
  | drop
  | reject
  | log
  deriving DecidableEq, Repr

/-- `RuleDirection`. -/
inductive RuleDirection
  | inbound
  | outbound
  | bidirectional
  deriving DecidableEq, Repr

/-- `FirewallRule`. -/
structure FirewallRule where
  ruleId : UInt32
  priority : UInt32
  sourceIp : CString
  destinationIp : CString
  sourcePort : UInt32
  destinationPort : UInt32
  protocol : CString
  direction : RuleDirection
  action : FirewallAction
  enabled : Bool
  deriving DecidableEq, Repr

/-- The rules of `NetworkSecurity` in use, and the counter of the file that rules are numbered by.
-/
structure NetworkSecurity where
  firewallRules : List FirewallRule
  nextRuleId : UInt32
  deriving DecidableEq, Repr

/-- `network_security_init`, which leaves the counter. -/
def networkSecurityInit (nextRuleId : UInt32) : NetworkSecurity where
  firewallRules := []
  nextRuleId := nextRuleId

/-- What a packet is matched by. -/
structure Packet where
  srcIp : CString
  dstIp : CString
  protocol : CString
  deriving DecidableEq, Repr

/-! ### The calls -/

/-- `security_add_firewall_rule`. -/
def securityAddFirewallRule (sec : NetworkSecurity) (packet : Packet) (srcPort dstPort : UInt32)
    (action : FirewallAction) : NetworkSecurity × Int :=
  if maxFirewallRules ≤ sec.firewallRules.length then (sec, -1)
  else
    ({ firewallRules := sec.firewallRules ++
        [{ ruleId := sec.nextRuleId
           priority := UInt32.ofNat sec.firewallRules.length
           sourceIp := packet.srcIp.take 63
           destinationIp := packet.dstIp.take 63
           sourcePort := srcPort
           destinationPort := dstPort
           protocol := packet.protocol.take 7
           direction := .bidirectional
           action := action
           enabled := true }]
       nextRuleId := sec.nextRuleId + 1 }, 0)

/-- The test of the loop of `security_remove_firewall_rule`. -/
def hasRuleId (ruleId : UInt32) (rule : FirewallRule) : Bool :=
  rule.ruleId == ruleId

/-- A write to the mark of a rule. -/
def FirewallRule.setEnabled (enabled : Bool) (rule : FirewallRule) : FirewallRule :=
  { rule with enabled := enabled }

/-- The row of the rule that `security_remove_firewall_rule` finds. -/
def NetworkSecurity.ruleRow (sec : NetworkSecurity) (ruleId : UInt32) : Option ℕ :=
  sec.firewallRules.findIdx? (hasRuleId ruleId)

/-- `security_remove_firewall_rule`. -/
def securityRemoveFirewallRule (sec : NetworkSecurity) (ruleId : UInt32) : NetworkSecurity × Int :=
  match sec.ruleRow ruleId with
  | none => (sec, -1)
  | some row =>
    ({ sec with
      firewallRules := sec.firewallRules.modify row (FirewallRule.setEnabled false) }, 0)

/-- The three comparisons of `security_check_firewall_rule`. -/
def FirewallRule.matches (packet : Packet) (rule : FirewallRule) : Bool :=
  rule.sourceIp == packet.srcIp && rule.destinationIp == packet.dstIp &&
    rule.protocol == packet.protocol

/-- The loop of `security_check_firewall_rule`. -/
def checkRules (packet : Packet) : List FirewallRule → Int
  | [] => 0
  | rule :: rules =>
    if rule.enabled = false then checkRules packet rules
    else if rule.matches packet then
      match rule.action with
      | .drop => -1
      | .accept => 0
      | .reject => checkRules packet rules
      | .log => checkRules packet rules
    else checkRules packet rules

/-- `security_check_firewall_rule`. -/
def securityCheckFirewallRule (sec : NetworkSecurity) (packet : Packet) : Int :=
  checkRules packet sec.firewallRules

/-- `security_enable_firewall`. -/
def securityEnableFirewall (sec : NetworkSecurity) : NetworkSecurity × Int :=
  ({ sec with firewallRules := sec.firewallRules.map (FirewallRule.setEnabled true) }, 0)

/-- `security_disable_firewall`. -/
def securityDisableFirewall (sec : NetworkSecurity) : NetworkSecurity × Int :=
  ({ sec with firewallRules := sec.firewallRules.map (FirewallRule.setEnabled false) }, 0)

/-- A call of the firewall. -/
inductive FirewallCall
  | addRule (packet : Packet) (srcPort dstPort : UInt32) (action : FirewallAction)
  | removeRule (ruleId : UInt32)
  | checkRule (packet : Packet)
  | enable
  | disable
  deriving DecidableEq, Repr

/-- The rules after a call. -/
def firewallStep (sec : NetworkSecurity) : FirewallCall → NetworkSecurity
  | .addRule packet srcPort dstPort action =>
    (securityAddFirewallRule sec packet srcPort dstPort action).1
  | .removeRule ruleId => (securityRemoveFirewallRule sec ruleId).1
  | .checkRule _ => sec
  | .enable => (securityEnableFirewall sec).1
  | .disable => (securityDisableFirewall sec).1

/-! ### What is asked -/

/-- What the table does not keep: the rows of the rules that were removed, and, while the firewall
is disabled, the marks that enabling it is to give back. -/
structure RuleHistory where
  removed : List ℕ
  before : Option (List Bool)
  deriving DecidableEq, Repr

/-- Nothing was removed, and the firewall was not disabled. -/
def RuleHistory.none : RuleHistory where
  removed := []
  before := Option.none

/-- The history after a call. Disabling records what is in force, once; rules that are then added or
removed change what is to be given back. -/
def trackHistory (sec : NetworkSecurity) (call : FirewallCall) (history : RuleHistory) :
    RuleHistory :=
  match call with
  | .addRule _ _ _ _ =>
    if maxFirewallRules ≤ sec.firewallRules.length then history
    else { history with before := history.before.map fun marks ↦ marks ++ [true] }
  | .removeRule ruleId =>
    match sec.ruleRow ruleId with
    | none => history
    | some row =>
      { removed := row :: history.removed
        before := history.before.map fun marks ↦ marks.set row false }
  | .checkRule _ => history
  | .enable => { history with before := Option.none }
  | .disable =>
    { history with
      before := some (history.before.getD (sec.firewallRules.map FirewallRule.enabled)) }

/-- No rule that was removed is in force. -/
def RemovedOutOfForce (sec : NetworkSecurity) (removed : List ℕ) : Prop :=
  ∀ row ∈ removed, ∀ rule ∈ sec.firewallRules[row]?, rule.enabled = false

/-- The rules without those that were removed. -/
def unremoved (rules : List FirewallRule) (removed : List ℕ) : List FirewallRule :=
  (rules.zipIdx.filter fun numbered ↦ !removed.contains numbered.2).map Prod.fst

/-- The first enabled rule that matches a packet. -/
def earliestMatch (packet : Packet) (rules : List FirewallRule) : Option FirewallRule :=
  rules.find? fun rule ↦ rule.enabled && rule.matches packet

/-- What a rule with an action decides: the code has a decision for two of the four actions. -/
def FirewallAction.decision : FirewallAction → Option Int
  | .accept => some 0
  | .drop => some (-1)
  | .reject => none
  | .log => none

/-- What is asked of the answer for a packet: it does not depend on the rules that were removed, and
it is that of the first enabled rule that matches, or to accept when there is none. -/
structure DecidesRight (rules : List FirewallRule) (removed : List ℕ) (packet : Packet) : Prop where
  unaffected : checkRules packet rules = checkRules packet (unremoved rules removed)
  earliest : match earliestMatch packet rules with
    | none => checkRules packet rules = 0
    | some rule => rule.action.decision = some (checkRules packet rules)

/-- What is asked of a call: a packet is decided right, and enabling gives back what is recorded. -/
def ActsRight (sec : NetworkSecurity) (history : RuleHistory) : FirewallCall → Prop
  | .checkRule packet => DecidesRight sec.firewallRules history.removed packet
  | .enable => ∀ marks ∈ history.before,
      (securityEnableFirewall sec).1.firewallRules.map FirewallRule.enabled = marks
  | _ => True

/-- The condition on a call. The firewall is not enabled after a rule was removed, and the first
enabled rule that matches a packet accepts or drops it. -/
def FirewallCall.KeepsRemoved (sec : NetworkSecurity) (history : RuleHistory) : FirewallCall → Prop
  | .checkRule packet => ∀ rule ∈ earliestMatch packet sec.firewallRules,
      rule.action = .accept ∨ rule.action = .drop
  | .enable => history.removed = []
  | _ => True

/-! ### Checking a packet -/

/-- Rules that are not enabled do not count. -/
theorem checkRules_filter_enabled (packet : Packet) (rules : List FirewallRule) :
    checkRules packet (rules.filter FirewallRule.enabled) = checkRules packet rules := by
  induction rules with
  | nil => rfl
  | cons rule rules ih =>
    cases henabled : rule.enabled with
    | false => simp [checkRules, henabled, ih]
    | true => simp [checkRules, henabled, ih]

/-- When no removed rule is in force, the enabled rules are those that were not removed. -/
theorem filter_enabled_unremoved {sec : NetworkSecurity} {removed : List ℕ}
    (hout : RemovedOutOfForce sec removed) :
    (unremoved sec.firewallRules removed).filter FirewallRule.enabled =
      sec.firewallRules.filter FirewallRule.enabled := by
  have hwhole : sec.firewallRules.filter FirewallRule.enabled =
      (sec.firewallRules.zipIdx.filter fun numbered ↦ numbered.1.enabled).map Prod.fst := by
    conv_lhs => rw [← List.zipIdx_map_fst 0 sec.firewallRules]
    rw [List.filter_map]
    rfl
  rw [hwhole, unremoved, List.filter_map, List.filter_filter]
  congr 1
  refine List.filter_congr fun numbered hnumbered ↦ ?_
  have hrule := List.mem_zipIdx_iff_getElem?.mp hnumbered
  have hremoved : numbered.2 ∈ removed → numbered.1.enabled = false :=
    fun hmem ↦ hout numbered.2 hmem numbered.1 hrule
  by_cases hmem : numbered.2 ∈ removed
  · simp [hmem, hremoved hmem]
  · simp [hmem]

/-- When the first enabled rule that matches has a decision, that is the answer. -/
theorem checkRules_of_earliestMatch {packet : Packet} {rules : List FirewallRule}
    {rule : FirewallRule} {answer : Int} (hfirst : earliestMatch packet rules = some rule)
    (hdecision : rule.action.decision = some answer) : checkRules packet rules = answer := by
  induction rules with
  | nil => simp [earliestMatch] at hfirst
  | cons head rules ih =>
    cases hmatch : head.enabled && head.matches packet with
    | true =>
      obtain rfl : head = rule := by simpa [earliestMatch, hmatch] using hfirst
      rw [Bool.and_eq_true] at hmatch
      cases haction : head.action <;> simp [haction, FirewallAction.decision] at hdecision
      · simp [checkRules, hmatch.1, hmatch.2, haction, hdecision]
      · simp [checkRules, hmatch.1, hmatch.2, haction, hdecision]
    | false =>
      have hrest : earliestMatch packet rules = some rule := by
        simpa [earliestMatch, hmatch] using hfirst
      rw [checkRules]
      split_ifs with henabled hmatches
      · exact ih hrest
      · simp [henabled, hmatches] at hmatch
      · exact ih hrest

/-- When no enabled rule matches, the packet is accepted. -/
theorem checkRules_of_earliestMatch_none {packet : Packet} {rules : List FirewallRule}
    (hnone : earliestMatch packet rules = none) : checkRules packet rules = 0 := by
  induction rules with
  | nil => rfl
  | cons head rules ih =>
    rw [earliestMatch, List.find?_eq_none] at hnone
    have hrest : earliestMatch packet rules = none :=
      List.find?_eq_none.mpr fun rule hrule ↦ hnone rule (List.mem_cons_of_mem _ hrule)
    have hhead := hnone head List.mem_cons_self
    rw [checkRules]
    split_ifs with henabled hmatches
    · exact ih hrest
    · simp [henabled, hmatches] at hhead
    · exact ih hrest

/-- Assumes: no removed rule is in force. A packet is decided right exactly when the first enabled
rule that matches it accepts or drops it. -/
theorem decidesRight_iff {sec : NetworkSecurity} {history : RuleHistory} {packet : Packet}
    (hout : RemovedOutOfForce sec history.removed) :
    DecidesRight sec.firewallRules history.removed packet ↔
      (FirewallCall.checkRule packet).KeepsRemoved sec history := by
  constructor
  · rintro ⟨-, hearliest⟩ rule hrule
    rw [Option.mem_def.mp hrule] at hearliest
    cases haction : rule.action with
    | accept => exact .inl rfl
    | drop => exact .inr rfl
    | reject => simp [haction, FirewallAction.decision] at hearliest
    | log => simp [haction, FirewallAction.decision] at hearliest
  · intro hkeeps
    refine ⟨?_, ?_⟩
    · rw [← checkRules_filter_enabled packet (unremoved _ _), filter_enabled_unremoved hout,
        checkRules_filter_enabled]
    · cases hfirst : earliestMatch packet sec.firewallRules with
      | none => exact checkRules_of_earliestMatch_none hfirst
      | some rule =>
        obtain ⟨answer, hdecision⟩ : ∃ answer, rule.action.decision = some answer := by
          rcases hkeeps rule hfirst with haction | haction
          · exact ⟨0, by rw [haction]; rfl⟩
          · exact ⟨-1, by rw [haction]; rfl⟩
        rw [checkRules_of_earliestMatch hfirst hdecision]
        exact hdecision

/-! ### Removed rules -/

/-- What holds as long as the firewall was not enabled after a rule was removed. -/
structure RulesKept (sec : NetworkSecurity) (history : RuleHistory) : Prop where
  out : RemovedOutOfForce sec history.removed
  removed_lt : ∀ row ∈ history.removed, row < sec.firewallRules.length
  all_enabled : history.removed = [] → history.before = none →
    ∀ rule ∈ sec.firewallRules, rule.enabled = true
  recorded : history.removed = [] → ∀ marks ∈ history.before,
    marks = List.replicate sec.firewallRules.length true

theorem rulesKept_init (nextRuleId : UInt32) :
    RulesKept (networkSecurityInit nextRuleId) RuleHistory.none where
  out := by simp [RemovedOutOfForce, RuleHistory.none]
  removed_lt := by simp [RuleHistory.none]
  all_enabled := by simp [networkSecurityInit]
  recorded := by simp [RuleHistory.none]

/-- Marks that are set on every rule. -/
theorem map_enabled_setEnabled (rules : List FirewallRule) (enabled : Bool) :
    (rules.map (FirewallRule.setEnabled enabled)).map FirewallRule.enabled =
      List.replicate rules.length enabled := by
  rw [List.map_map]
  exact List.map_const'

theorem RulesKept.addRule {sec : NetworkSecurity} {history : RuleHistory}
    (hkept : RulesKept sec history) (packet : Packet) (srcPort dstPort : UInt32)
    (action : FirewallAction) :
    RulesKept (firewallStep sec (.addRule packet srcPort dstPort action))
      (trackHistory sec (.addRule packet srcPort dstPort action) history) := by
  simp only [firewallStep, securityAddFirewallRule, trackHistory]
  split_ifs with hfull
  · exact hkept
  · refine ⟨?_, ?_, ?_, ?_⟩
    · intro row hrow rule hrule
      rw [List.getElem?_append_left (hkept.removed_lt row hrow)] at hrule
      exact hkept.out row hrow rule hrule
    · intro row hrow
      have hlt := hkept.removed_lt row hrow
      simp only [List.length_append, List.length_singleton]
      omega
    · intro hremoved hbefore rule hrule
      rcases List.mem_append.mp hrule with hold | hnew
      · exact hkept.all_enabled hremoved (Option.map_eq_none_iff.mp hbefore) rule hold
      · rw [List.mem_singleton.mp hnew]
    · intro hremoved marks hmarks
      obtain ⟨old, hold, rfl⟩ := Option.map_eq_some_iff.mp hmarks
      rw [hkept.recorded hremoved old hold, List.length_append, List.length_singleton,
        List.replicate_succ']

theorem RulesKept.removeRule {sec : NetworkSecurity} {history : RuleHistory}
    (hkept : RulesKept sec history) (ruleId : UInt32) :
    RulesKept (firewallStep sec (.removeRule ruleId))
      (trackHistory sec (.removeRule ruleId) history) := by
  simp only [firewallStep, securityRemoveFirewallRule, trackHistory]
  cases hrow : sec.ruleRow ruleId with
  | none => exact hkept
  | some row =>
    have hlt : row < sec.firewallRules.length := (List.findIdx?_eq_some_iff_getElem.mp hrow).1
    refine ⟨?_, ?_, ?_, ?_⟩
    · intro other hother rule hrule
      rw [Option.mem_def, List.getElem?_modify] at hrule
      obtain ⟨old, hold, rfl⟩ := Option.map_eq_some_iff.mp hrule
      split_ifs with hsame
      · rfl
      · rcases List.mem_cons.mp hother with rfl | hmem
        · exact absurd rfl hsame
        · exact hkept.out other hmem old hold
    · intro other hother
      rw [List.length_modify]
      rcases List.mem_cons.mp hother with rfl | hmem
      · exact hlt
      · exact hkept.removed_lt other hmem
    · intro hremoved
      exact absurd hremoved (List.cons_ne_nil _ _)
    · intro hremoved
      exact absurd hremoved (List.cons_ne_nil _ _)

theorem RulesKept.enable {sec : NetworkSecurity} {history : RuleHistory}
    (hnone : history.removed = []) :
    RulesKept (firewallStep sec .enable) (trackHistory sec .enable history) where
  out := by simp [RemovedOutOfForce, trackHistory, hnone]
  removed_lt := by simp [trackHistory, hnone]
  all_enabled := by
    intro _ _ rule hrule
    obtain ⟨old, -, rfl⟩ := List.mem_map.mp hrule
    rfl
  recorded := by simp [trackHistory]

theorem RulesKept.disable {sec : NetworkSecurity} {history : RuleHistory}
    (hkept : RulesKept sec history) :
    RulesKept (firewallStep sec .disable) (trackHistory sec .disable history) where
  out := by
    intro row _ rule hrule
    rw [Option.mem_def, firewallStep, securityDisableFirewall, List.getElem?_map] at hrule
    obtain ⟨old, -, rfl⟩ := Option.map_eq_some_iff.mp hrule
    rfl
  removed_lt := by
    intro row hrow
    rw [firewallStep, securityDisableFirewall, List.length_map]
    exact hkept.removed_lt row hrow
  all_enabled := by simp [trackHistory]
  recorded := by
    intro hremoved marks hmarks
    rw [firewallStep, securityDisableFirewall, List.length_map]
    simp only [trackHistory, Option.mem_def, Option.some.injEq] at hmarks
    subst hmarks
    cases hbefore : history.before with
    | none =>
      refine List.eq_replicate_iff.mpr ⟨by simp, fun mark hmark ↦ ?_⟩
      obtain ⟨rule, hrule, rfl⟩ := List.mem_map.mp hmark
      exact hkept.all_enabled hremoved hbefore rule hrule
    | some old => exact hkept.recorded hremoved old hbefore

/-- A call with the condition keeps removed rules out of force. -/
theorem RulesKept.step {sec : NetworkSecurity} {history : RuleHistory}
    (hkept : RulesKept sec history) (call : FirewallCall)
    (hcall : call.KeepsRemoved sec history) :
    RulesKept (firewallStep sec call) (trackHistory sec call history) := by
  cases call with
  | addRule packet srcPort dstPort action => exact hkept.addRule packet srcPort dstPort action
  | removeRule ruleId => exact hkept.removeRule ruleId
  | checkRule packet => exact hkept
  | enable => exact RulesKept.enable hcall
  | disable => exact hkept.disable

/-- Enabling the firewall puts a rule that was removed in force. -/
theorem RulesKept.removed_eq_nil_of_enable {sec : NetworkSecurity} {history : RuleHistory}
    (hkept : RulesKept sec history)
    (hout : RemovedOutOfForce (firewallStep sec .enable) history.removed) :
    history.removed = [] := by
  refine List.eq_nil_iff_forall_not_mem.mpr fun row hrow ↦ ?_
  have hlt := hkept.removed_lt row hrow
  have hoff := hout row hrow (FirewallRule.setEnabled true (sec.firewallRules.get ⟨row, hlt⟩))
    (by simp [firewallStep, securityEnableFirewall, hlt])
  simp [FirewallRule.setEnabled] at hoff

/-- From a state in which removed rules are out of force, a call leaves them so and does what is
asked of it exactly when it meets the condition. -/
theorem RulesKept.step_iff {sec : NetworkSecurity} {history : RuleHistory}
    (hkept : RulesKept sec history) (call : FirewallCall) :
    RemovedOutOfForce (firewallStep sec call) (trackHistory sec call history).removed ∧
        ActsRight sec history call ↔ call.KeepsRemoved sec history := by
  constructor
  · rintro ⟨hout, hacts⟩
    cases call with
    | checkRule packet => exact (decidesRight_iff hkept.out).mp hacts
    | enable => exact hkept.removed_eq_nil_of_enable hout
    | addRule | removeRule | disable => trivial
  · intro hcall
    refine ⟨(hkept.step call hcall).out, ?_⟩
    cases call with
    | checkRule packet => exact (decidesRight_iff hkept.out).mpr hcall
    | enable =>
      intro marks hmarks
      rw [hkept.recorded hcall marks hmarks]
      exact map_enabled_setEnabled sec.firewallRules true
    | addRule | removeRule | disable => trivial

/-- In a run of the firewall, no removed rule ever comes back in force, every packet is decided by
the first enabled rule that matches it and as if the removed rules were not there, and enabling the
firewall gives back the rules that were in force before it was disabled, exactly when the firewall
is never enabled after a rule was removed and the first enabled rule that matches a packet is never
a `REJECT` or a `LOG` rule. -/
theorem removedRulesStay_iff (nextRuleId : UInt32) (calls : List FirewallCall) :
    AlongRun (withTrace firewallStep trackHistory)
          (fun traced ↦ RemovedOutOfForce traced.1 traced.2.removed)
          (networkSecurityInit nextRuleId, RuleHistory.none) calls ∧
        EveryStep (withTrace firewallStep trackHistory)
          (fun traced call ↦ ActsRight traced.1 traced.2 call)
          (networkSecurityInit nextRuleId, RuleHistory.none) calls ↔
      EveryStep (withTrace firewallStep trackHistory)
        (fun traced call ↦ call.KeepsRemoved traced.1 traced.2)
        (networkSecurityInit nextRuleId, RuleHistory.none) calls := by
  refine alongRun_and_everyStep_iff_of_kept (fun traced ↦ RulesKept traced.1 traced.2)
    (fun _ _ ↦ True) ?_ ?_ ?_ (rulesKept_init nextRuleId) (fun _ _ _ ↦ trivial)
  · intro traced call hkept _ hcall
    exact hkept.step call hcall
  · intro traced hkept
    exact hkept.out
  · intro traced call hkept _
    exact hkept.step_iff call

/-- A packet from `a` to `b`. -/
def packetAB : Packet where
  srcIp := ofChars ['a']
  dstIp := ofChars ['b']
  protocol := ofChars ['t', 'c', 'p']

/-- A rule that drops packets from `a` to `b` is removed, and the firewall is enabled: the removed
rule drops the next packet. -/
theorem removed_rule_drops_after_enable :
    let calls : List FirewallCall := [.addRule packetAB 0 0 .drop, .removeRule 1, .enable]
    securityCheckFirewallRule (runFrom firewallStep (networkSecurityInit 1) calls) packetAB = -1 ∧
      ¬ EveryStep (withTrace firewallStep trackHistory)
        (fun traced call ↦ ActsRight traced.1 traced.2 call)
        (networkSecurityInit 1, RuleHistory.none) (calls ++ [.checkRule packetAB]) := by
  refine ⟨by decide, fun hright ↦ ?_⟩
  have hlast := hright [.addRule packetAB 0 0 .drop, .removeRule 1, .enable] (.checkRule packetAB)
    (List.prefix_refl _)
  exact absurd hlast.unaffected (by decide)

end OneOS.Networking
