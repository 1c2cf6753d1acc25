import Corduit.Engine.Routing.Reload

/-!
# References to providers

A rule that names a provider which is not loaded never matches.  Construction
checks the rules of the list itself and not those nested in them; a reload
checks none.  What a compiled tree refers to is what the configuration refers
to, so the exact condition is one on the configuration.
-/

namespace Corduit.Engine

open Collection Transition RoseTree RuleProviderManager

section Configured

variable {Value : Type} (decoders : Decoders Value)

/-- The reference that a rule makes itself. -/
def ownReference (rule : RuleConfig Value) : List String :=
  if rule.ruleType.namesProvider then [rule.payload] else []

/-- The references that a rule makes, itself or in a rule nested in it. -/
def configReferences : Nat → RuleConfig Value → List String
  | 0, rule => ownReference rule
  | levels + 1, rule =>
      if rule.ruleType.isCombinator then
        rule.rules.flatMap fun value =>
          match decoders.fromValue value with
          | .ok inner => configReferences levels inner
          | .error _ => []
      else
        ownReference rule

end Configured

/-- The reference that a compiled rule makes itself. -/
def RuleHead.reference (head : RuleHead) : List String :=
  if head.ruleType.namesProvider then [head.pattern] else []

/-- The providers that a compiled rule names, at any depth. -/
def references (rule : CompiledRule) : List String :=
  (rule.labels.filter fun head => head.ruleType.namesProvider).map RuleHead.pattern

theorem references_node (head : RuleHead) (children : List CompiledRule) :
    references (.node head children) = head.reference ++ children.flatMap references := by
  rw [references, labels_node, List.filter_cons, RuleHead.reference]
  have below : ((children.map labels).flatten.filter fun head =>
      head.ruleType.namesProvider).map RuleHead.pattern = children.flatMap references := by
    rw [List.filter_flatten, List.map_flatten, List.map_map, List.map_map, List.flatMap]
    rfl
  split
  · rw [List.map_cons, below, List.singleton_append]
  · rw [below, List.nil_append]

section Compiled

variable {Value : Type} {decoders : Decoders Value} {rule : RuleConfig Value}

theorem compilePattern_of_namesProvider (names : rule.ruleType.namesProvider = true) :
    compilePattern rule = rule.payload := by
  unfold compilePattern
  cases kind : rule.ruleType <;> rw [kind] at names
  all_goals exact absurd names Bool.false_ne_true

theorem reference_compileHead {head : RuleHead} (compiled : compileHead decoders rule = .ok head) :
    head.reference = ownReference rule := by
  rcases bind_eq_ok_iff.mp compiled with ⟨_, _, compiled⟩
  rcases bind_eq_ok_iff.mp compiled with ⟨regex, _, compiled⟩
  rcases bind_eq_ok_iff.mp compiled with ⟨ipnet, _, compiled⟩
  rcases bind_eq_ok_iff.mp compiled with ⟨ports, _, compiled⟩
  rcases bind_eq_ok_iff.mp compiled with ⟨network, _, compiled⟩
  rw [← pure_eq_ok_iff.mp compiled, RuleHead.reference, ownReference]
  split
  · rename_i names
    exact congrArg (fun pattern => [pattern]) (compilePattern_of_namesProvider names)
  · rfl

theorem ownReference_of_combinator (combinator : rule.ruleType.isCombinator = true) :
    ownReference rule = [] := by
  unfold ownReference
  rcases RuleType.isCombinator_iff.mp combinator with kind | kind | kind <;> rw [kind] <;> rfl

theorem compileRuleWith_ok {nested : Except Error (List CompiledRule)} {tree : CompiledRule}
    (compiled : compileRuleWith decoders nested rule = .ok tree) :
    ∃ head children, tree = .node head children ∧ compileHead decoders rule = .ok head ∧
      if rule.ruleType.isCombinator then nested = .ok children else children = [] := by
  rcases bind_eq_ok_iff.mp compiled with ⟨children, below, compiled⟩
  rcases bind_eq_ok_iff.mp compiled with ⟨head, own, compiled⟩
  refine ⟨head, children, (pure_eq_ok_iff.mp compiled).symm, own, ?_⟩
  rw [compileChildren] at below
  split
  · rename_i combinator
    rw [if_pos combinator] at below
    rcases bind_eq_ok_iff.mp below with ⟨operands, done, checked⟩
    rcases bind_eq_ok_iff.mp checked with ⟨_, _, same⟩
    rw [done, pure_eq_ok_iff.mp same]
  · rename_i leaf
    rw [if_neg leaf] at below
    exact (Except.ok.inj below).symm

/-- A compiled rule is what some compiled children make of it. -/
theorem compileRule_ok {levels : Nat} {tree : CompiledRule}
    (compiled : compileRule decoders levels rule = .ok tree) :
    ∃ nested, compileRuleWith decoders nested rule = .ok tree := by
  cases levels with
  | zero => exact ⟨_, compiled⟩
  | succ levels => exact ⟨_, compiled⟩

/-- What a compiled rule refers to is what the configured one refers to. -/
theorem references_compileRule (levels : Nat) (rule : RuleConfig Value) (tree : CompiledRule)
    (compiled : compileRule decoders levels rule = .ok tree) :
    references tree = configReferences decoders levels rule := by
  induction levels generalizing rule tree with
  | zero =>
      rcases compileRuleWith_ok compiled with ⟨head, children, rfl, own, below⟩
      by_cases combinator : rule.ruleType.isCombinator = true
      · rw [if_pos combinator] at below
        cases below
      · rw [if_neg combinator] at below
        rw [below, references_node, reference_compileHead own, List.flatMap_nil, List.append_nil,
          configReferences]
  | succ levels ih =>
      rcases compileRuleWith_ok compiled with ⟨head, children, rfl, own, below⟩
      rw [references_node, reference_compileHead own, configReferences]
      by_cases combinator : rule.ruleType.isCombinator = true
      · rw [if_pos combinator] at below
        rw [if_pos combinator, ownReference_of_combinator combinator, List.nil_append]
        apply flatMap_of_mapM_ok _ below
        intro value child compiled
        rw [compileNestedRule] at compiled
        cases decoded : decoders.fromValue value with
        | ok inner =>
            rw [decoded] at compiled
            exact ih inner child compiled
        | error error =>
            rw [decoded] at compiled
            cases compiled
      · rw [if_neg combinator] at below
        rw [below, if_neg combinator, List.flatMap_nil, List.append_nil]

theorem configReferences_of_leaf (leaf : ¬ rule.ruleType.isCombinator = true) (levels : Nat) :
    configReferences decoders levels rule = ownReference rule := by
  cases levels with
  | zero => rfl
  | succ levels => rw [configReferences, if_neg leaf]

end Compiled

section Table

variable {Value : Type} {decoders : Decoders Value} {rules : List CompiledRule}

/-- The references of a configured table. -/
def tableReferences (decoders : Decoders Value) (rules : List (RuleConfig Value)) : List String :=
  rules.flatMap (configReferences decoders maxRuleDepth)

/-- Those of them that stand in a combinator. -/
def nestedReferences (decoders : Decoders Value) (rules : List (RuleConfig Value)) :
    List String :=
  tableReferences decoders (rules.filter fun rule => rule.ruleType.isCombinator)

section

variable {configured : List (RuleConfig Value)}
  (compiled : compileRules decoders configured = .ok rules)

include compiled

theorem references_compileRules :
    rules.flatMap references = tableReferences decoders configured :=
  flatMap_of_mapM_ok (references_compileRule maxRuleDepth) compiled

theorem reference_compileRules :
    (rules.flatMap fun rule => rule.label.reference) = configured.flatMap ownReference := by
  apply flatMap_of_mapM_ok _ compiled
  intro rule tree compiled
  rcases compileRule_ok compiled with ⟨nested, compiled⟩
  rcases compileRuleWith_ok compiled with ⟨head, children, rfl, own, _⟩
  exact reference_compileHead own

end

theorem checkReferences_ok_iff {names : List String} :
    checkReferences names rules = .ok () ↔
      ∀ name ∈ rules.flatMap fun rule => rule.label.reference, name ∈ names := by
  have listed : (rules.filter fun rule => rule.label.ruleType.namesProvider).map
      (fun rule => rule.label.pattern) = rules.flatMap fun rule => rule.label.reference := by
    induction rules with
    | nil => rfl
    | cons rule rules ih =>
        rw [List.filter_cons, List.flatMap_cons, ← ih, RuleHead.reference]
        split <;> rfl
  simp only [checkReferences, listed]
  split
  · rename_i name missing
    apply iff_of_false (fun impossible => by cases impossible)
    intro all
    have unknown := List.find?_some missing
    have known := all name (List.mem_of_find?_eq_some missing)
    simp [known] at unknown
  · rename_i none
    apply iff_of_true rfl
    intro name member
    simpa using List.find?_eq_none.mp none name member

end Table

namespace Router

/-- Every rule that names a provider, at any depth, names one that is
loaded. -/
def NoDangling (router : Router) : Prop :=
  ∀ rule ∈ router.rules, ∀ inner, Within inner rule →
    inner.label.ruleType.namesProvider = true → router.providers.Holds inner.label.pattern

theorem noDangling_iff (router : Router) :
    router.NoDangling ↔
      ∀ name ∈ router.rules.flatMap references, router.providers.Holds name := by
  unfold NoDangling references
  simp only [List.mem_flatMap, List.mem_map, List.mem_filter, mem_labels_iff]
  constructor
  · rintro loaded name ⟨rule, present, head, ⟨⟨inner, inside, rfl⟩, names⟩, rfl⟩
    exact loaded rule present inner inside names
  · intro loaded rule present inner inside names
    exact loaded _ ⟨rule, present, inner.label, ⟨⟨inner, inside, rfl⟩, names⟩, rfl⟩

end Router

theorem holds_addProviders {load : RuleProviderConfig → Except Error RuleIndex}
    {configured : List RuleProviderConfig} {manager loaded : RuleProviderManager}
    (added : addProviders load manager configured = .ok loaded) (name : String) :
    loaded.Holds name ↔
      name ∈ configured.map RuleProviderConfig.name ∨ manager.Holds name := by
  induction configured generalizing manager with
  | nil =>
      obtain rfl := Except.ok.inj added
      simp
  | cons config configs ih =>
      rw [addProviders] at added
      cases outcome : load config with
      | error error =>
          rw [addProvider_of_error outcome] at added
          cases added
      | ok index =>
          rw [addProvider_of_ok outcome] at added
          rw [ih added, List.map_cons, List.mem_cons, Holds]
          by_cases same : name = config.name
          · subst same
            simp
          · rw [AList.lookup_insert_ne same, ← Holds]
            tauto

namespace Router

variable {Value : Type} (decoders : Decoders Value)
  (load : RuleProviderConfig → Except Error RuleIndex) (config : Config Value)
  (configured : List RuleProviderConfig)

section

variable {decoders load config configured}

/-- A new router has the configured providers, and no rule of its table itself
names another. -/
theorem new_ok {router : Router} (made : Router.new decoders load config configured = .ok router) :
    compileRules decoders config.rules = .ok router.rules ∧
      (∀ name ∈ config.rules.flatMap ownReference,
        name ∈ configured.map RuleProviderConfig.name) ∧
      ∀ name, router.providers.Holds name ↔ name ∈ configured.map RuleProviderConfig.name := by
  rcases bind_eq_ok_iff.mp made with ⟨rules, compiled, made⟩
  rcases bind_eq_ok_iff.mp made with ⟨_, checked, made⟩
  rcases bind_eq_ok_iff.mp made with ⟨providers, added, made⟩
  obtain rfl := pure_eq_ok_iff.mp made
  refine ⟨compiled, ?_, ?_⟩
  · rw [← reference_compileRules compiled]
    exact checkReferences_ok_iff.mp checked
  · intro name
    rw [holds_addProviders added name]
    simp [Holds]

theorem reload_ok {router : Router} {order : HashOrder}
    (done : (router.reload decoders load order config configured).1 = .ok ()) :
    compileRules decoders config.rules =
        .ok (router.reload decoders load order config configured).2.rules ∧
      ∀ name, (router.reload decoders load order config configured).2.providers.Holds name ↔
        name ∈ configured.map RuleProviderConfig.name := by
  rw [reload] at done ⊢
  cases compiled : compileRules decoders config.rules with
  | error error =>
      rw [compiled] at done
      cases done
  | ok rules =>
      rw [compiled] at done
      have loadable := refresh_ok_iff_loadable.mp done
      exact ⟨rfl, holds_refreshRuleProviders loadable.1 done⟩

theorem forall_tableReferences_iff {rules : List (RuleConfig Value)} {known : String → Prop}
    (own : ∀ name ∈ rules.flatMap ownReference, known name) :
    (∀ name ∈ tableReferences decoders rules, known name) ↔
      ∀ name ∈ nestedReferences decoders rules, known name := by
  unfold nestedReferences tableReferences
  simp only [List.mem_flatMap, List.mem_filter] at own ⊢
  constructor
  · rintro all name ⟨rule, ⟨present, _⟩, referred⟩
    exact all name ⟨rule, present, referred⟩
  · rintro nested name ⟨rule, present, referred⟩
    by_cases combinator : rule.ruleType.isCombinator = true
    · exact nested name ⟨rule, ⟨present, combinator⟩, referred⟩
    · rw [configReferences_of_leaf combinator] at referred
      exact own name ⟨rule, present, referred⟩

end

/-- A table that is accepted refers to loaded providers only, exactly if the
references that are not checked do: those nested in combinators when the router
is made, and all of them when it is reloaded. -/
theorem noDangling_iff_unchecked :
    (∀ router, Router.new decoders load config configured = .ok router →
      (router.NoDangling ↔ ∀ name ∈ nestedReferences decoders config.rules,
        name ∈ configured.map RuleProviderConfig.name)) ∧
    ∀ (router : Router) order,
      (router.reload decoders load order config configured).1 = .ok () →
        ((router.reload decoders load order config configured).2.NoDangling ↔
          ∀ name ∈ tableReferences decoders config.rules,
            name ∈ configured.map RuleProviderConfig.name) := by
  constructor
  · intro router made
    rcases new_ok made with ⟨compiled, checked, loaded⟩
    rw [noDangling_iff, references_compileRules compiled, ← forall_tableReferences_iff checked]
    exact forall₂_congr fun name _ => loaded name
  · intro router order done
    rcases reload_ok done with ⟨compiled, loaded⟩
    rw [noDangling_iff, references_compileRules compiled]
    exact forall₂_congr fun name _ => loaded name

/-- A flat object, by its fields. -/
abbrev Fields := List (String × String)

/-- Decode the objects that spell a rule set. -/
def fromFields (fields : Fields) : Except String (RuleConfig Fields) :=
  match fields.lookup "type", fields.lookup "outbound" with
  | some "rule-set", some outbound =>
      .ok ⟨.ruleSet, (fields.lookup "payload").getD "", outbound, false, []⟩
  | _, _ => .error "unknown variant"

/-- Decoders that know no regex and no network. -/
def fieldDecoders : Decoders Fields where
  fromValue := fromFields
  buildRegex _ := .error "unsupported"
  parseNet _ := .error "invalid IP address syntax"

/-- Everything but a rule set, which is named under a negation, goes to a
proxy. -/
def unlessListed (name : String) : Config Fields where
  outbounds := [⟨.socks5, "proxy"⟩]
  rules := [⟨.not, "", "proxy", false,
    [[("type", "rule-set"), ("payload", name), ("outbound", "proxy")]]⟩]

/-- A provider with one domain. -/
def oneDomain (_ : RuleProviderConfig) : Except Error RuleIndex :=
  .ok { exact := ["ads.example"] }

/-- The table of `unlessListed` with the provider it names. -/
theorem noDangling_with_provider :
    ∃ router, Router.new fieldDecoders oneDomain (unlessListed "ads") [adsProvider] = .ok router ∧
      router.NoDangling ∧
      (router.reload fieldDecoders oneDomain insertionOrder (unlessListed "ads")
        [adsProvider]).1 = .ok () ∧
      (router.reload fieldDecoders oneDomain insertionOrder (unlessListed "ads")
        [adsProvider]).2.NoDangling := by
  have unchecked := noDangling_iff_unchecked fieldDecoders oneDomain (unlessListed "ads")
    [adsProvider]
  refine ⟨_, rfl, (unchecked.1 _ rfl).mpr ?_, rfl, (unchecked.2 _ insertionOrder rfl).mpr ?_⟩
  · decide
  · decide

/-- Without the provider the same table is accepted. -/
theorem nested_reference_unchecked :
    ∃ router, Router.new fieldDecoders oneDomain (unlessListed "ads") [] = .ok router ∧
      ¬ router.NoDangling := by
  refine ⟨_, rfl, ?_⟩
  intro loaded
  have held := loaded _ List.mem_cons_self _ (.deeper List.mem_cons_self (.here _)) rfl
  exact Bool.false_ne_true held

end Router

end Corduit.Engine
