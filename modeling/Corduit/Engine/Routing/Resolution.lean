import Corduit.Collection.First
import Corduit.Engine.Routing.Core

/-!
# Decisions do not depend on when a name is resolved

The loop over the rules resolves a name once, and every later rule finds the
addresses at hand.  A rule judged alone would find them exactly if it wants
them.  The two judgements agree for a rule unless a combinator that is marked
`no_resolve` stands, in it, above an address rule that is not: the mark keeps
the combinator from asking for addresses, but not its operands from looking at
those that an earlier rule asked for.
-/

namespace Corduit.Engine

open Collection Netstack RoseTree

/-- An address rule without the mark, or a combinator above one. -/
def RuleHead.readsResolved (providers : RuleProviderManager) (head : RuleHead)
    (below : List Bool) : Bool :=
  match head.ruleType with
  | .ipCidr | .geoip => !head.noResolve
  | .ruleSet | .geosite => !head.noResolve && providers.carriesDstIpEntries head.pattern
  | .and | .or | .not => below.any id
  | _ => false

/-- Whether a rule looks at resolved addresses. -/
def readsResolved (providers : RuleProviderManager) : CompiledRule → Bool :=
  RoseTree.fold (RuleHead.readsResolved providers)

/-- A combinator that is marked, above an address rule that is not. -/
def MarkedAbove (providers : RuleProviderManager) (rule : CompiledRule) : Prop :=
  rule.label.ruleType.isCombinator = true ∧ rule.label.noResolve = true ∧
    readsResolved providers rule = true

theorem RuleIndex.matches_resolved (index : RuleIndex) (request : RouteRequest)
    (addresses : List IpAddr) {noResolve : Bool}
    (blind : noResolve = true ∨ index.hasDstIpEntries = false) :
    index.matches (MatchContext.ruleInput ⟨request, addresses⟩ noResolve) =
      index.matches (MatchContext.ruleInput ⟨request, []⟩ noResolve) := by
  have unseen : (!noResolve && addresses.any index.matchesDst) = false := by
    rcases blind with marked | empty
    · rw [marked]
      rfl
    · have never : ∀ address, index.matchesDst address = false := by
        intro address
        have nets : index.dstNets = [] := by simpa [hasDstIpEntries] using empty
        rw [matchesDst, nets, List.any_nil]
      simp [never]
  simp only [RuleIndex.matches, MatchContext.ruleInput, unseen, List.any_nil, Bool.and_false]

/-- A rule set that is marked, or without address entries, does not look at
resolved addresses. -/
theorem RuleProviderManager.matches_resolved (providers : RuleProviderManager) (name : String)
    (request : RouteRequest) (addresses : List IpAddr) {noResolve : Bool}
    (blind : noResolve = true ∨ providers.carriesDstIpEntries name = false) :
    providers.matches name (MatchContext.ruleInput ⟨request, addresses⟩ noResolve) =
      providers.matches name (MatchContext.ruleInput ⟨request, []⟩ noResolve) := by
  unfold RuleProviderManager.carriesDstIpEntries at blind
  unfold RuleProviderManager.matches
  cases found : AList.lookup name providers with
  | none => rfl
  | some provider =>
      rw [found] at blind
      exact provider.index.matches_resolved request addresses blind

namespace RuleHead

variable {env : Environment} {providers : RuleProviderManager} {head : RuleHead}

theorem matchesRuleWith_combinator (combinator : head.ruleType.isCombinator = true)
    (first second : MatchContext) (below : List Bool) :
    head.matchesRuleWith env providers first below =
      head.matchesRuleWith env providers second below := by
  unfold matchesRuleWith
  rcases RuleType.isCombinator_iff.mp combinator with kind | kind | kind <;> rw [kind]

/-- Any other rule has no operands, and looks at resolved addresses only if it
is an address rule without the mark. -/
theorem matchesRuleWith_leaf (leaf : head.ruleType.isCombinator = false)
    {operands : List Bool} (quiet : head.readsResolved providers operands = false)
    (request : RouteRequest) (addresses : List IpAddr) (first second : List Bool) :
    head.matchesRuleWith env providers ⟨request, addresses⟩ first =
      head.matchesRuleWith env providers ⟨request, []⟩ second := by
  unfold readsResolved at quiet
  unfold matchesRuleWith
  cases kind : head.ruleType <;> rw [kind] at leaf quiet
  case and | or | not => exact absurd leaf.symm Bool.false_ne_true
  case ipCidr | geoip =>
    have marked : head.noResolve = true := by simpa using quiet
    simp [MatchContext.dstCandidates, marked]
  case ruleSet | geosite =>
    apply RuleProviderManager.matches_resolved
    cases marked : head.noResolve with
    | true => exact Or.inl rfl
    | false =>
        rw [marked] at quiet
        exact Or.inr quiet

end RuleHead

section Evaluation

variable (env : Environment) (providers : RuleProviderManager) (request : RouteRequest)
  (addresses : List IpAddr)

/-- The answer of a rule does not depend on the addresses at hand. -/
def Indifferent (rule : CompiledRule) : Prop :=
  matchesRuleWith env providers ⟨request, addresses⟩ rule =
    matchesRuleWith env providers ⟨request, []⟩ rule

variable {env providers request addresses} {head : RuleHead} {children : List CompiledRule}

theorem indifferent_combinator (combinator : head.ruleType.isCombinator = true)
    (operands : ∀ child ∈ children, Indifferent env providers request addresses child) :
    Indifferent env providers request addresses (.node head children) := by
  unfold Indifferent matchesRuleWith
  have same : children.map (fold (RuleHead.matchesRuleWith env providers ⟨request, addresses⟩)) =
      children.map (fold (RuleHead.matchesRuleWith env providers ⟨request, []⟩)) :=
    List.map_congr_left operands
  rw [fold_node, fold_node, same]
  exact RuleHead.matchesRuleWith_combinator combinator ..

theorem indifferent_leaf (leaf : head.ruleType.isCombinator = false)
    (quiet : readsResolved providers (.node head children) = false) :
    Indifferent env providers request addresses (.node head children) := by
  unfold readsResolved at quiet
  rw [fold_node] at quiet
  unfold Indifferent matchesRuleWith
  rw [fold_node, fold_node]
  exact RuleHead.matchesRuleWith_leaf leaf quiet ..

theorem readsResolved_combinator (combinator : head.ruleType.isCombinator = true) :
    readsResolved providers (.node head children) =
      children.any (readsResolved providers) := by
  have unfolded : ∀ below, head.readsResolved providers below = below.any id := by
    intro below
    unfold RuleHead.readsResolved
    rcases RuleType.isCombinator_iff.mp combinator with kind | kind | kind <;> rw [kind]
  rw [readsResolved, fold_node, unfolded, List.any_map]
  rfl

theorem indifferent_of_quiet (rule : CompiledRule)
    (quiet : readsResolved providers rule = false) :
    Indifferent env providers request addresses rule := by
  induction rule using rec_children with
  | step head children ih =>
      cases kind : head.ruleType.isCombinator with
      | false => exact indifferent_leaf kind quiet
      | true =>
          rw [readsResolved_combinator kind] at quiet
          apply indifferent_combinator kind
          intro child member
          apply ih child member
          simpa using List.any_eq_false.mp quiet child member

theorem wantsDstIp_of_marked {rule : CompiledRule} (marked : rule.label.noResolve = true) :
    wantsDstIp providers rule = false := by
  rcases rule with ⟨head, children⟩
  rw [wantsDstIp, fold_node, RuleHead.wantsDstIp]
  exact if_pos marked

theorem wantsDstIp_combinator (combinator : head.ruleType.isCombinator = true)
    (unmarked : ¬ head.noResolve = true) :
    wantsDstIp providers (.node head children) = children.any (wantsDstIp providers) := by
  have unfolded : ∀ below, head.wantsDstIp providers below = below.any id := by
    intro below
    rw [RuleHead.wantsDstIp, if_neg unmarked]
    rcases RuleType.isCombinator_iff.mp combinator with kind | kind | kind <;> rw [kind]
  rw [wantsDstIp, fold_node, unfolded, List.any_map]
  rfl

/-- A rule that is no combinator reads exactly the addresses it wants. -/
theorem readsResolved_leaf (leaf : head.ruleType.isCombinator = false) :
    readsResolved providers (.node head children) =
      wantsDstIp providers (.node head children) := by
  rw [readsResolved, wantsDstIp, fold_node, fold_node]
  unfold RuleHead.readsResolved RuleHead.wantsDstIp RuleHead.wantsDstIpWithoutProvider
  cases kind : head.ruleType <;> rw [kind] at leaf
  case and | or | not => exact absurd leaf.symm Bool.false_ne_true
  all_goals cases marked : head.noResolve <;> simp

/-- A rule that wants no addresses does not depend on them either, as long as
the marked combinators in it do not. -/
theorem indifferent_of_unwanted (rule : CompiledRule)
    (unwanted : wantsDstIp providers rule = false)
    (kept : ∀ inner, Within inner rule → MarkedAbove providers inner →
      Indifferent env providers request addresses inner) :
    Indifferent env providers request addresses rule := by
  induction rule using rec_children with
  | step head children ih =>
      cases kind : head.ruleType.isCombinator with
      | false => exact indifferent_leaf kind ((readsResolved_leaf kind).trans unwanted)
      | true =>
          by_cases marked : head.noResolve = true
          · cases reads : readsResolved providers (.node head children) with
            | false => exact indifferent_of_quiet _ reads
            | true => exact kept _ (.here _) ⟨kind, marked, reads⟩
          · rw [wantsDstIp_combinator kind marked] at unwanted
            apply indifferent_combinator kind
            intro child member
            apply ih child member
            · simpa using List.any_eq_false.mp unwanted child member
            · exact fun inner inside => kept inner (.deeper member inside)

/-- A rule that is marked does not depend on addresses, unless it is a
combinator above an address rule. -/
theorem indifferent_of_marked (rule : CompiledRule) (marked : rule.label.noResolve = true)
    (kept : MarkedAbove providers rule → Indifferent env providers request addresses rule) :
    Indifferent env providers request addresses rule := by
  rcases rule with ⟨head, children⟩
  cases reads : readsResolved providers (.node head children) with
  | false => exact indifferent_of_quiet _ reads
  | true =>
      cases kind : head.ruleType.isCombinator with
      | true => exact kept ⟨kind, marked, reads⟩
      | false =>
          rw [readsResolved_leaf kind, wantsDstIp_of_marked marked] at reads
          exact absurd reads Bool.false_ne_true

end Evaluation

section Judgement

variable (env : Environment) (providers : RuleProviderManager) (request : RouteRequest)

/-- The addresses that the name of the destination resolves to. -/
def resolvedAddresses : List IpAddr :=
  resolveDestinationIps env request.domain none

/-- A rule judged by itself sees the addresses exactly if it wants them. -/
def matchesAlone (rule : CompiledRule) : Bool :=
  matchesRuleWith env providers
    ⟨request, if wantsDstIp providers rule then resolvedAddresses env request else []⟩ rule

/-- In the loop a rule sees the addresses if it wants them, or a rule before it
did.  `attempted` says that one did before the loop got to this list. -/
def matchesAt (attempted : Bool) (rules : List CompiledRule) (index : Nat)
    (rule : CompiledRule) : Bool :=
  matchesRuleWith env providers
    ⟨request, if attempted || (rules.take (index + 1)).any (wantsDstIp providers) then
      resolvedAddresses env request else []⟩ rule

/-- The loop takes the first rule that matches with the addresses it finds at
hand. -/
theorem scan_eq_firstMatch (named : request.dstIp = none) (attempted : Bool) (index : Nat)
    (rules : List CompiledRule) :
    scan env providers request attempted
        (if attempted then resolvedAddresses env request else []) index rules =
      (firstMatch (matchesAt env providers request attempted rules) rules).map fun found =>
        (found.1, found.2 + index) := by
  induction rules generalizing attempted index with
  | nil => rfl
  | cons rule rules ih =>
      have carried : (if (!attempted && request.dstIp.isNone && wantsDstIp providers rule) = true
            then resolveDestinationIps env request.domain none
            else if attempted then resolvedAddresses env request else []) =
          if attempted || wantsDstIp providers rule then resolvedAddresses env request else [] := by
        cases attempted <;> cases wants : wantsDstIp providers rule <;>
          simp [named, resolvedAddresses]
      have flag : (attempted || !attempted && request.dstIp.isNone && wantsDstIp providers rule) =
          (attempted || wantsDstIp providers rule) := by
        cases attempted <;> simp [named]
      have later : (fun index => matchesAt env providers request attempted (rule :: rules)
            (index + 1)) =
          matchesAt env providers request (attempted || wantsDstIp providers rule) rules := by
        funext index inner
        rw [matchesAt, matchesAt, List.take_succ_cons, List.any_cons, Bool.or_assoc]
      rw [scan]
      simp only [carried, flag]
      rw [ih, ← later]
      have first : matchesAt env providers request attempted (rule :: rules) 0 rule =
          matchesRuleWith env providers
            ⟨request, if attempted || wantsDstIp providers rule then
              resolvedAddresses env request else []⟩ rule := by
        simp [matchesAt]
      rw [← first]
      cases taken : matchesAt env providers request attempted (rule :: rules) 0 rule with
      | true =>
          rw [firstMatch_cons_of_true rules taken]
          simp
      | false =>
          rw [firstMatch_cons_of_false rules taken, Option.map_map, if_neg Bool.false_ne_true]
          congr 1
          funext found
          exact Prod.ext rfl (by simp; omega)

/-- The two judgements of a rule differ at most in the addresses of a rule that
wants none. -/
theorem matchesAt_eq_alone {rules : List CompiledRule} {index : Nat} {rule : CompiledRule}
    (present : rules[index]? = some rule)
    (kept : (rules.take (index + 1)).any (wantsDstIp providers) = true →
      wantsDstIp providers rule = false →
      Indifferent env providers request (resolvedAddresses env request) rule) :
    matchesAt env providers request false rules index rule =
      matchesAlone env providers request rule := by
  unfold matchesAt matchesAlone
  rw [Bool.false_or]
  cases wants : wantsDstIp providers rule with
  | true =>
      have member : rule ∈ rules.take (index + 1) :=
        List.mem_of_getElem? (by rw [List.getElem?_take_of_lt (Nat.lt_succ_self index), present])
      rw [List.any_eq_true.mpr ⟨rule, member, wants⟩]
  | false =>
      cases asked : (rules.take (index + 1)).any (wantsDstIp providers) with
      | true => exact kept asked wants
      | false => rfl

end Judgement

namespace Router

variable (router : Router) (env : Environment) (request : RouteRequest)

/-- Where a request goes that no rule takes. -/
def unmatchedOutbound : String :=
  if router.rules.isEmpty &&
      (isMainlandChinaDomain request.domain ||
        isMainlandChinaIp env (resolvedAddresses env request)) then
    router.defaults.direct
  else
    router.defaults.default

/-- The decision that a selected rule makes. -/
def verdict : Option (CompiledRule × Nat) → RouteDecision
  | some (rule, index) => ⟨rule.label.outbound, some index, some rule.label.ruleType⟩
  | none => ⟨router.unmatchedOutbound env request, none, none⟩

/-- The decision when every rule is judged by itself. -/
def decideAlone : RouteDecision :=
  router.verdict env request
    (firstMatch (fun _ => matchesAlone env router.providers request) router.rules)

/-- The answer of a rule in the loop over the rules. -/
abbrev matchesInLoop : Nat → CompiledRule → Bool :=
  matchesAt env router.providers request false router.rules

theorem decide_eq_verdict {runtimeMode : Int} {configured : Mode}
    (ruleMode : effectiveMode runtimeMode configured = .rule) (named : request.dstIp = none) :
    (router.decide env runtimeMode configured request).1 =
      router.verdict env request
        (firstMatch (router.matchesInLoop env request) router.rules) := by
  rw [decide, ruleMode]
  by_cases empty : router.rules = []
  · -- without rules there is nothing to loop over
    cases domain : isMainlandChinaDomain request.domain <;>
      cases china : isMainlandChinaIp env (resolveDestinationIps env request.domain none) <;>
        simp [empty, named, domain, china, firstMatch, verdict, unmatchedOutbound, scan,
          resolvedAddresses]
  · have rules : router.rules.isEmpty = false := by simpa using empty
    have looped : scan env router.providers request false [] 0 router.rules =
        firstMatch (router.matchesInLoop env request) router.rules := by
      have found := scan_eq_firstMatch env router.providers request named false 0 router.rules
      simpa using found
    rw [← looped]
    cases found : scan env router.providers request false [] 0 router.rules with
    | none => simp [named, rules, found, verdict, unmatchedOutbound]
    | some taken => simp [named, rules, found, verdict]

/-- What it means that lazy resolution does not show in a decision. -/
structure JudgesAlone (decision : RouteDecision) : Prop where
  /-- The decision is that of the first rule that matches by itself. -/
  selected : decision = router.decideAlone env request
  /-- No rule that the loop reaches depends on what was resolved before it. -/
  independent : ∀ index rule, router.rules[index]? = some rule →
    Reaches (router.matchesInLoop env request) router.rules index →
      router.matchesInLoop env request index rule =
        matchesAlone env router.providers request rule
  /-- No marked rule in one that the loop reaches looks at a resolved address. -/
  marked : ∀ index rule, router.rules[index]? = some rule →
    Reaches (router.matchesInLoop env request) router.rules index →
      ∀ inner, Within inner rule → inner.label.noResolve = true →
        (router.rules.take (index + 1)).any (wantsDstIp router.providers) = true →
          Indifferent env router.providers request (resolvedAddresses env request) inner

/-- Every marked combinator above an unmarked address rule, in a rule that is
reached with the addresses at hand, gives the answer that it gives without
them. -/
def MarksKept : Prop :=
  ∀ index rule, router.rules[index]? = some rule →
    Reaches (fun _ => matchesAlone env router.providers request) router.rules index →
      (router.rules.take (index + 1)).any (wantsDstIp router.providers) = true →
        ∀ inner, Within inner rule → MarkedAbove router.providers inner →
          Indifferent env router.providers request (resolvedAddresses env request) inner

section Exactness

variable {router env request}

theorem agree_of_marksKept (kept : router.MarksKept env request) (index : Nat)
    (rule : CompiledRule) (present : router.rules[index]? = some rule)
    (reaches : Reaches (fun _ => matchesAlone env router.providers request) router.rules index) :
    router.matchesInLoop env request index rule =
      matchesAlone env router.providers request rule := by
  apply matchesAt_eq_alone env router.providers request present
  intro asked unwanted
  exact indifferent_of_unwanted rule unwanted (kept index rule present reaches asked)

/-- The decision shows nothing of when the name was resolved exactly if the
marks are kept. -/
theorem judgesAlone_iff_marksKept {runtimeMode : Int} {configured : Mode}
    (ruleMode : effectiveMode runtimeMode configured = .rule) (named : request.dstIp = none) :
    router.JudgesAlone env request (router.decide env runtimeMode configured request).1 ↔
      router.MarksKept env request := by
  constructor
  · intro alone index rule present reaches asked inner inside above
    -- as far as the rules get on their own, so far gets the loop
    have same := (firstMatch_eq_iff (router.matchesInLoop env request)
      (fun _ => matchesAlone env router.providers request) router.rules).mp
        ((firstMatch_eq_iff _ _ _).mpr fun index rule present reached =>
          (alone.independent index rule present reached).symm).symm
    exact alone.marked index rule present (reaches.congr same) inner inside above.2.1 asked
  · intro kept
    have same : firstMatch (router.matchesInLoop env request) router.rules =
        firstMatch (fun _ => matchesAlone env router.providers request) router.rules :=
      (firstMatch_eq_iff _ _ _).mpr (agree_of_marksKept kept)
    have back := (firstMatch_eq_iff _ _ _).mp same.symm
    constructor
    · rw [router.decide_eq_verdict env request ruleMode named, same, decideAlone]
    · exact fun index rule present reaches => (back index rule present reaches).symm
    · intro index rule present reaches inner inside marked asked
      apply indifferent_of_marked inner marked
      exact kept index rule present (reaches.congr back) asked inner inside

end Exactness

/-- A rule for the destinations in a network. -/
def networkRule (net : Net 32) (noResolve : Bool) (outbound : String) : CompiledRule :=
  .node
    { RuleHead.blank with
      ruleType := .ipCidr, ipnet := some (.v4 net), noResolve := noResolve, outbound := outbound }
    []

/-- Every name resolves to `1.2.3.4`. -/
def oneAddress : Environment where
  matchesCountry _ _ := false
  parseAddress _ := none
  resolveHostAll _ := [.v4 0x01020304]
  cidr := ⟨fun _ => none, fun _ => none⟩

/-- A request for a domain. -/
def namedRequest : RouteRequest :=
  { domain := some "example.com" }

/-- `10.0.0.0/8`, then the given rule, then the rest. -/
def threeRules (second : CompiledRule) : Router where
  rules :=
    [networkRule (.ofPrefix 0x0A000000 8) false "lan", second,
      .node { RuleHead.blank with outbound := "rest" } []]
  defaults := ⟨"DIRECT", none, "DIRECT"⟩
  providers := ∅

/-- A marked address rule. -/
def markedLeaf : CompiledRule :=
  networkRule (.ofPrefix 0x01020300 24) true "marked"

/-- A marked combinator above an address rule without the mark. -/
def markedAnd : CompiledRule :=
  .node { RuleHead.blank with ruleType := .and, noResolve := true, outbound := "marked" }
    [networkRule (.ofPrefix 0x01020300 24) false "marked"]

theorem judgesAlone_marked_leaf :
    (threeRules markedLeaf).JudgesAlone oneAddress namedRequest
      ((threeRules markedLeaf).decide oneAddress ProxyMode.rule .direct namedRequest).1 := by
  apply (judgesAlone_iff_marksKept (by decide) rfl).mpr
  intro index rule present _ _ inner inside above
  have leaves : ∀ rule ∈ (threeRules markedLeaf).rules,
      rule.children = [] ∧ rule.label.ruleType.isCombinator = false := by
    decide
  rcases leaves rule (List.mem_of_getElem? present) with ⟨childless, leaf⟩
  cases inside with
  | here => exact absurd (leaf.symm.trans above.1) Bool.false_ne_true
  | deeper member _ =>
      rw [children] at childless
      rw [childless] at member
      exact absurd member List.not_mem_nil

/-- The first rule has the name resolved, and the marked combinator then
matches the resolved address. -/
theorem marked_and_matches_resolved :
    ¬ (threeRules markedAnd).JudgesAlone oneAddress namedRequest
      ((threeRules markedAnd).decide oneAddress ProxyMode.rule .direct namedRequest).1 := by
  intro alone
  have loop : ((threeRules markedAnd).decide oneAddress ProxyMode.rule .direct namedRequest).1 =
      ⟨"marked", some 1, some .and⟩ := by
    decide
  have judged : (threeRules markedAnd).decideAlone oneAddress namedRequest =
      ⟨"rest", some 2, some .match⟩ := by
    decide
  exact absurd (loop.symm.trans (alone.selected.trans judged)) (by decide)

end Router

end Corduit.Engine
