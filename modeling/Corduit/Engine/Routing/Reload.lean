import Corduit.Engine.Routing.Compile
import Mathlib.Data.List.Find

/-!
# Reloading a router

A reload compiles the new rules first, and a failure there changes nothing.
After that it writes the rules and the defaults, and then synchronizes the
providers one by one.  A later failure undoes nothing, so a reload that fails
has changed nothing only if there was nothing to change before the failure.
-/

namespace Corduit.Engine

open Collection Transition

namespace RuleProviderManager

variable (manager : RuleProviderManager)

/-- A provider is filed under this name. -/
def Holds (name : String) : Prop :=
  (manager.lookup name).isSome = true

/-- The provider is new, or its configuration changed. -/
def needsLoad (config : RuleProviderConfig) : Bool :=
  match manager.lookup config.name with
  | some existing => ruleProviderConfigChanged existing.config config
  | none => true

variable {manager} {load : RuleProviderConfig → Except Error RuleIndex}
  {config : RuleProviderConfig}

theorem ruleProviderConfigChanged_self (config : RuleProviderConfig) :
    ruleProviderConfigChanged config config = false := by
  simp [ruleProviderConfigChanged]

theorem needsLoad_congr {other : RuleProviderManager}
    (same : other.lookup config.name = manager.lookup config.name) :
    other.needsLoad config = manager.needsLoad config := by
  rw [needsLoad, needsLoad, same]

theorem addProvider_of_ok {index : RuleIndex} (loaded : load config = .ok index) :
    manager.addProvider load config = .ok (manager.insert config.name ⟨config, index⟩) := by
  rw [addProvider, loaded]
  rfl

theorem addProvider_of_error {error : Error} (failed : load config = .error error) :
    manager.addProvider load config = .error error := by
  rw [addProvider, failed]
  rfl

end RuleProviderManager

open RuleProviderManager

section Step

variable {load : RuleProviderConfig → Except Error RuleIndex} {manager : RuleProviderManager}
  {config : RuleProviderConfig}

theorem syncProvider_of_settled (settled : manager.needsLoad config = false) :
    syncProvider load manager config = (.ok (), manager) := by
  unfold syncProvider
  unfold needsLoad at settled
  cases found : AList.lookup config.name manager with
  | none => simp [found] at settled
  | some existing => simp_all

theorem syncProvider_of_loaded {index : RuleIndex} (pending : manager.needsLoad config = true)
    (loaded : load config = .ok index) :
    (syncProvider load manager config).1 = .ok () ∧
      ∀ name, (syncProvider load manager config).2.lookup name =
        if name = config.name then some ⟨config, index⟩ else manager.lookup name := by
  unfold syncProvider
  unfold needsLoad at pending
  cases found : AList.lookup config.name manager with
  | none =>
      simp only [addProvider_of_ok loaded]
      exact ⟨trivial, fun name => Table.lookup_insert_eq manager config.name name _⟩
  | some existing =>
      rw [found] at pending
      simp only [pending, addProvider_of_ok loaded, Bool.not_true, Bool.false_eq_true, if_false]
      refine ⟨trivial, fun name => ?_⟩
      rw [Table.lookup_insert_eq, Table.lookup_erase_eq]
      split <;> rfl

theorem syncProvider_of_failed {error : Error} (pending : manager.needsLoad config = true)
    (failed : load config = .error error) :
    (syncProvider load manager config).1 = .error error ∧
      ∀ name, (syncProvider load manager config).2.lookup name =
        if name = config.name then none else manager.lookup name := by
  unfold syncProvider
  unfold needsLoad at pending
  cases found : AList.lookup config.name manager with
  | none =>
      simp only [addProvider_of_error failed]
      refine ⟨trivial, fun name => ?_⟩
      by_cases same : name = config.name
      · rw [if_pos same, same, found]
      · rw [if_neg same]
  | some existing =>
      rw [found] at pending
      simp only [pending, addProvider_of_error failed, Bool.not_true, Bool.false_eq_true, if_false]
      exact ⟨trivial, Table.lookup_erase_eq manager config.name⟩

theorem loaded_ne_lookup (pending : manager.needsLoad config = true) (index : RuleIndex) :
    some ⟨config, index⟩ ≠ manager.lookup config.name := by
  intro same
  rw [needsLoad, ← same] at pending
  have changed : ruleProviderConfigChanged config config = true := pending
  rw [ruleProviderConfigChanged_self] at changed
  exact Bool.false_ne_true changed

theorem lookup_syncProvider_of_ne {name : String} (other : name ≠ config.name) :
    (syncProvider load manager config).2.lookup name = manager.lookup name := by
  cases pending : manager.needsLoad config with
  | false => rw [syncProvider_of_settled pending]
  | true =>
      cases loaded : load config with
      | ok index => rw [(syncProvider_of_loaded pending loaded).2, if_neg other]
      | error error => rw [(syncProvider_of_failed pending loaded).2, if_neg other]

/-- Synchronizing a provider fails exactly if it has to be loaded and cannot
be. -/
theorem syncProvider_ok_iff :
    (syncProvider load manager config).1 = .ok () ↔
      (manager.needsLoad config = true → ∃ index, load config = .ok index) := by
  cases pending : manager.needsLoad config with
  | false => simp [syncProvider_of_settled pending]
  | true =>
      cases loaded : load config with
      | ok index => simp [(syncProvider_of_loaded pending loaded).1]
      | error error => simp [(syncProvider_of_failed pending loaded).1]

theorem holds_syncProvider (done : (syncProvider load manager config).1 = .ok ()) :
    (syncProvider load manager config).2.Holds config.name := by
  cases pending : manager.needsLoad config with
  | false =>
      rw [syncProvider_of_settled pending, Holds]
      rw [needsLoad] at pending
      cases found : AList.lookup config.name manager with
      | none => simp [found] at pending
      | some existing => rfl
  | true =>
      rcases syncProvider_ok_iff.mp done pending with ⟨index, loaded⟩
      rw [Holds, (syncProvider_of_loaded pending loaded).2, if_pos rfl]
      rfl

end Step

section Loop

variable {load : RuleProviderConfig → Except Error RuleIndex} {manager : RuleProviderManager}
  {config : RuleProviderConfig} {configs : List RuleProviderConfig}

theorem syncProviders_cons_of_ok (done : (syncProvider load manager config).1 = .ok ()) :
    syncProviders load manager (config :: configs) =
      syncProviders load (syncProvider load manager config).2 configs := by
  rw [syncProviders]
  generalize syncProvider load manager config = step at done ⊢
  rcases step with ⟨outcome, after⟩
  obtain rfl : outcome = .ok () := done
  rfl

theorem syncProviders_cons_of_error {error : Error}
    (failed : (syncProvider load manager config).1 = .error error) :
    syncProviders load manager (config :: configs) =
      (.error error, (syncProvider load manager config).2) := by
  rw [syncProviders]
  generalize syncProvider load manager config = step at failed ⊢
  rcases step with ⟨outcome, after⟩
  obtain rfl : outcome = .error error := failed
  rfl

theorem lookup_syncProviders_of_notMem {name : String}
    (other : name ∉ configs.map RuleProviderConfig.name) :
    (syncProviders load manager configs).2.lookup name = manager.lookup name := by
  induction configs generalizing manager with
  | nil => rfl
  | cons config configs ih =>
      rw [List.map_cons, List.mem_cons, not_or] at other
      rcases other with ⟨differs, rest⟩
      cases done : (syncProvider load manager config).1 with
      | ok value =>
          rw [syncProviders_cons_of_ok done, ih rest, lookup_syncProvider_of_ne differs]
      | error error =>
          rw [syncProviders_cons_of_error done, lookup_syncProvider_of_ne differs]

/-- One step leaves the needs of the others as they were. -/
theorem needsLoad_syncProvider {other : RuleProviderConfig}
    (distinct : (config :: configs).map RuleProviderConfig.name |>.Nodup)
    (member : other ∈ configs) :
    (syncProvider load manager config).2.needsLoad other = manager.needsLoad other := by
  apply needsLoad_congr
  apply lookup_syncProvider_of_ne
  intro same
  exact (List.nodup_cons.mp distinct).1 (same ▸ List.mem_map_of_mem member)

/-- The synchronization succeeds exactly if everything that has to be loaded
can be. -/
theorem syncProviders_ok_iff
    (distinct : (configs.map RuleProviderConfig.name).Nodup) :
    (syncProviders load manager configs).1 = .ok () ↔
      ∀ config ∈ configs, manager.needsLoad config = true →
        ∃ index, load config = .ok index := by
  induction configs generalizing manager with
  | nil => simp [syncProviders]
  | cons config configs ih =>
      rw [List.forall_mem_cons, ← syncProvider_ok_iff]
      cases done : (syncProvider load manager config).1 with
      | error error => simp [syncProviders_cons_of_error done]
      | ok value =>
          rw [syncProviders_cons_of_ok done, ih (List.nodup_cons.mp distinct).2]
          have needs : ∀ other ∈ configs,
              (syncProvider load manager config).2.needsLoad other = manager.needsLoad other :=
            fun other member => needsLoad_syncProvider distinct member
          constructor
          · intro loads
            exact ⟨rfl, fun other member pending =>
              loads other member ((needs other member).trans pending)⟩
          · rintro ⟨_, loads⟩ other member pending
            exact loads other member ((needs other member).symm.trans pending)

/-- Nothing changes exactly if the first provider that has to be loaded is new
and cannot be loaded, or there is no such provider. -/
theorem syncProviders_unchanged_iff
    (distinct : (configs.map RuleProviderConfig.name).Nodup) :
    (∀ name, (syncProviders load manager configs).2.lookup name = manager.lookup name) ↔
      ∀ first, configs.find? manager.needsLoad = some first →
        manager.lookup first.name = none ∧ ∃ error, load first = .error error := by
  induction configs with
  | nil => simp [syncProviders]
  | cons config configs ih =>
      rcases List.nodup_cons.mp distinct with ⟨fresh, rest⟩
      cases pending : manager.needsLoad config with
      | false =>
          have settled : syncProvider load manager config = (.ok (), manager) :=
            syncProvider_of_settled pending
          rw [syncProviders_cons_of_ok (by rw [settled]), settled,
            List.find?_cons_of_neg (by rw [pending]; exact Bool.false_ne_true)]
          exact ih rest
      | true =>
          rw [List.find?_cons_of_pos pending]
          cases loaded : load config with
          | ok index =>
              have filed := syncProvider_of_loaded pending loaded
              apply iff_of_false
              · intro unchanged
                have kept := unchanged config.name
                rw [syncProviders_cons_of_ok filed.1, lookup_syncProviders_of_notMem fresh,
                  filed.2, if_pos rfl] at kept
                exact loaded_ne_lookup pending index kept
              · intro none
                rcases none config rfl with ⟨_, error, failed⟩
                rw [loaded] at failed
                cases failed
          | error error =>
              have dropped := syncProvider_of_failed pending loaded
              rw [syncProviders_cons_of_error dropped.1]
              constructor
              · intro unchanged first same
                obtain rfl : config = first := Option.some.inj same
                refine ⟨?_, error, loaded⟩
                rw [← unchanged config.name, dropped.2, if_pos rfl]
              · intro none name
                rw [dropped.2]
                by_cases same : name = config.name
                · rw [if_pos same, same, (none config rfl).1]
                · rw [if_neg same]

/-- After a synchronization that succeeds, the providers are those that were
there and those that were named. -/
theorem holds_syncProviders {name : String}
    (done : (syncProviders load manager configs).1 = .ok ()) :
    (syncProviders load manager configs).2.Holds name ↔
      name ∈ configs.map RuleProviderConfig.name ∨ manager.Holds name := by
  induction configs generalizing manager with
  | nil => simp [syncProviders]
  | cons config configs ih =>
      cases first : (syncProvider load manager config).1 with
      | error error =>
          rw [syncProviders_cons_of_error first] at done
          cases done
      | ok value =>
          rw [syncProviders_cons_of_ok first] at done ⊢
          rw [ih done, List.map_cons, List.mem_cons]
          by_cases same : name = config.name
          · subst same
            simp [holds_syncProvider first]
          · rw [Holds, lookup_syncProvider_of_ne same, ← Holds]
            tauto

end Loop

section Refresh

variable {manager : RuleProviderManager} {configured : List RuleProviderConfig}

theorem desiredMap_of_distinct (collected : List RuleProviderConfig)
    (distinct : ((collected ++ configured).map RuleProviderConfig.name).Nodup) :
    desiredMap collected configured = .ok (collected ++ configured) := by
  induction configured generalizing collected with
  | nil => rw [desiredMap, List.append_nil]
  | cons config configs ih =>
      have fresh : ¬ (collected.any fun other => other.name = config.name) = true := by
        intro twice
        rcases List.any_eq_true.mp twice with ⟨other, member, same⟩
        rw [List.map_append, List.map_cons] at distinct
        exact (List.nodup_append.mp distinct).2.2 other.name (List.mem_map_of_mem member)
          config.name List.mem_cons_self (of_decide_eq_true same)
      rw [desiredMap, if_neg fresh, ih, List.append_assoc, List.singleton_append]
      rwa [List.append_assoc, List.singleton_append]

theorem desiredMap_of_duplicate (collected : List RuleProviderConfig)
    (distinct : (collected.map RuleProviderConfig.name).Nodup)
    (duplicate : ¬ ((collected ++ configured).map RuleProviderConfig.name).Nodup) :
    ∃ error, desiredMap collected configured = .error error := by
  induction configured generalizing collected with
  | nil =>
      rw [List.append_nil] at duplicate
      exact absurd distinct duplicate
  | cons config configs ih =>
      rw [desiredMap]
      split
      · exact ⟨_, rfl⟩
      · rename_i fresh
        apply ih
        · rw [List.map_append, List.map_singleton, List.nodup_append]
          refine ⟨distinct, List.nodup_singleton _, ?_⟩
          intro name member other single same
          rcases List.mem_map.mp member with ⟨former, present, rfl⟩
          rw [List.mem_singleton] at single
          exact fresh (List.any_eq_true.mpr ⟨former, present, decide_eq_true (same.trans single)⟩)
        · rwa [List.append_assoc, List.singleton_append]

theorem lookup_removeStale (desired : List RuleProviderConfig) (name : String) :
    (removeStale desired manager).lookup name =
      if name ∈ desired.map RuleProviderConfig.name then manager.lookup name else none := by
  rw [removeStale, Table.lookup_eraseAll]
  by_cases wanted : name ∈ desired.map RuleProviderConfig.name
  · have kept : name ∉ Table.keysWhere manager
        fun name _ => !desired.any fun config => config.name = name := by
      rw [Table.mem_keysWhere_iff]
      rintro ⟨_, _, unwanted⟩
      rcases List.mem_map.mp wanted with ⟨config, member, same⟩
      rw [List.any_eq_true.mpr ⟨config, member, decide_eq_true same⟩] at unwanted
      exact Bool.false_ne_true unwanted
    rw [if_pos wanted, if_neg kept]
  · rw [if_neg wanted]
    split
    · rfl
    · rename_i kept
      cases found : AList.lookup name manager with
      | none => rfl
      | some provider =>
          refine absurd ((Table.mem_keysWhere_iff _ _).mpr ⟨provider, found, ?_⟩) kept
          simp_all

theorem lookup_removeStale_of_current {desired : List RuleProviderConfig}
    (current : ∀ name, manager.Holds name → name ∈ desired.map RuleProviderConfig.name)
    (name : String) : (removeStale desired manager).lookup name = manager.lookup name := by
  rw [lookup_removeStale]
  split
  · rfl
  · rename_i unnamed
    cases found : AList.lookup name manager with
    | none => rfl
    | some provider => exact absurd (current name (by rw [Holds, found]; rfl)) unnamed

theorem needsLoad_removeStale {desired : List RuleProviderConfig} {config : RuleProviderConfig}
    (member : config ∈ desired) :
    (removeStale desired manager).needsLoad config = manager.needsLoad config := by
  apply needsLoad_congr
  rw [lookup_removeStale, if_pos (List.mem_map_of_mem member)]

variable {load : RuleProviderConfig → Except Error RuleIndex} {order : HashOrder}

variable (manager load order) in
theorem refreshRuleProviders_of_duplicate
    (duplicate : ¬ (configured.map RuleProviderConfig.name).Nodup) :
    ∃ error, refreshRuleProviders load order manager configured = (.error error, manager) := by
  rcases desiredMap_of_duplicate [] List.nodup_nil duplicate with ⟨error, refused⟩
  exact ⟨error, by rw [refreshRuleProviders, refused]⟩

variable (distinct : (configured.map RuleProviderConfig.name).Nodup)

include distinct

theorem refreshRuleProviders_of_distinct :
    refreshRuleProviders load order manager configured =
      syncProviders load (removeStale configured manager) (order.iterate configured) := by
  rw [refreshRuleProviders, desiredMap_of_distinct [] distinct]
  rfl

theorem iterate_distinct :
    ((order.iterate configured).map RuleProviderConfig.name).Nodup :=
  ((order.perm configured).map _).nodup_iff.mpr distinct

theorem refreshRuleProviders_ok_iff :
    (refreshRuleProviders load order manager configured).1 = .ok () ↔
      ∀ config ∈ configured, manager.needsLoad config = true →
        ∃ index, load config = .ok index := by
  rw [refreshRuleProviders_of_distinct distinct, syncProviders_ok_iff (iterate_distinct distinct)]
  constructor
  · intro loads config member pending
    exact loads config ((order.perm configured).mem_iff.mpr member)
      ((needsLoad_removeStale member).trans pending)
  · intro loads config listed pending
    have member := (order.perm configured).mem_iff.mp listed
    exact loads config member ((needsLoad_removeStale member).symm.trans pending)

/-- A refresh changes nothing exactly if no provider is stale, and the first
one that has to be loaded is new and cannot be. -/
theorem refreshRuleProviders_unchanged_iff :
    (∀ name, (refreshRuleProviders load order manager configured).2.lookup name =
        manager.lookup name) ↔
      (∀ name, manager.Holds name → name ∈ configured.map RuleProviderConfig.name) ∧
        ∀ first, (order.iterate configured).find? manager.needsLoad = some first →
          manager.lookup first.name = none ∧ ∃ error, load first = .error error := by
  have first : (order.iterate configured).find? (removeStale configured manager).needsLoad =
      (order.iterate configured).find? manager.needsLoad :=
    List.find?_congr fun config listed =>
      needsLoad_removeStale ((order.perm configured).mem_iff.mp listed)
  rw [refreshRuleProviders_of_distinct distinct]
  constructor
  · intro unchanged
    have current : ∀ name, manager.Holds name →
        name ∈ configured.map RuleProviderConfig.name := by
      intro name holds
      by_contra unnamed
      have skipped : name ∉ (order.iterate configured).map RuleProviderConfig.name :=
        fun listed => unnamed (((order.perm configured).map _).mem_iff.mp listed)
      have gone := unchanged name
      rw [lookup_syncProviders_of_notMem skipped, lookup_removeStale, if_neg unnamed] at gone
      rw [Holds, ← gone] at holds
      exact Bool.false_ne_true holds
    refine ⟨current, ?_⟩
    have fails := (syncProviders_unchanged_iff (iterate_distinct distinct)).mp fun name =>
      (unchanged name).trans (lookup_removeStale_of_current current name).symm
    simpa only [first, lookup_removeStale_of_current current] using fails
  · rintro ⟨current, fails⟩ name
    rw [← lookup_removeStale_of_current current name]
    apply (syncProviders_unchanged_iff (iterate_distinct distinct)).mpr
    simpa only [first, lookup_removeStale_of_current current] using fails

theorem holds_refreshRuleProviders
    (done : (refreshRuleProviders load order manager configured).1 = .ok ()) (name : String) :
    (refreshRuleProviders load order manager configured).2.Holds name ↔
      name ∈ configured.map RuleProviderConfig.name := by
  rw [refreshRuleProviders_of_distinct distinct] at done ⊢
  rw [holds_syncProviders done, ((order.perm configured).map _).mem_iff, Holds,
    lookup_removeStale]
  constructor
  · rintro (named | kept)
    · exact named
    · by_contra unnamed
      rw [if_neg unnamed] at kept
      exact Bool.false_ne_true kept
  · exact Or.inl

end Refresh

section Reload

variable (manager : RuleProviderManager) (load : RuleProviderConfig → Except Error RuleIndex)
  (order : HashOrder) (configured : List RuleProviderConfig)

/-- The names are distinct, and every provider that has to be loaded can be. -/
def Loadable : Prop :=
  (configured.map RuleProviderConfig.name).Nodup ∧
    ∀ config ∈ configured, manager.needsLoad config = true → ∃ index, load config = .ok index

/-- The refresh fails before it touches a provider: a name comes twice, or no
provider is stale and the first one to be loaded, which is new, cannot be. -/
def RefusedAtOnce : Prop :=
  ¬ (configured.map RuleProviderConfig.name).Nodup ∨
    (∀ name, manager.Holds name → name ∈ configured.map RuleProviderConfig.name) ∧
      ∃ first, (order.iterate configured).find? manager.needsLoad = some first ∧
        manager.lookup first.name = none ∧ ∃ error, load first = .error error

variable {manager load order configured}

theorem refresh_ok_iff_loadable :
    (refreshRuleProviders load order manager configured).1 = .ok () ↔
      Loadable manager load configured := by
  by_cases distinct : (configured.map RuleProviderConfig.name).Nodup
  · rw [refreshRuleProviders_ok_iff distinct, Loadable, and_iff_right distinct]
  · rcases refreshRuleProviders_of_duplicate manager load order distinct with ⟨error, refused⟩
    rw [refused]
    exact iff_of_false (fun impossible => by cases impossible) fun loadable => distinct loadable.1

/-- A refresh that fails has changed no provider exactly if it was refused at
once. -/
theorem unchanged_iff_refusedAtOnce {error : Error}
    (failed : (refreshRuleProviders load order manager configured).1 = .error error) :
    (∀ name, (refreshRuleProviders load order manager configured).2.lookup name =
        manager.lookup name) ↔ RefusedAtOnce manager load order configured := by
  by_cases distinct : (configured.map RuleProviderConfig.name).Nodup
  · rw [refreshRuleProviders_unchanged_iff distinct, RefusedAtOnce,
      or_iff_right (not_not.mpr distinct)]
    apply and_congr_right
    intro current
    constructor
    · intro fails
      cases first : (order.iterate configured).find? manager.needsLoad with
      | some config => exact ⟨config, rfl, fails config first⟩
      | none =>
          -- with nothing to be loaded the refresh would have succeeded
          have settled : ∀ config ∈ configured, ¬ manager.needsLoad config = true :=
            fun config member => List.find?_eq_none.mp first config
              ((order.perm configured).mem_iff.mpr member)
          have succeeds : (refreshRuleProviders load order manager configured).1 = .ok () :=
            (refreshRuleProviders_ok_iff distinct).mpr fun config member pending =>
              absurd pending (settled config member)
          rw [succeeds] at failed
          cases failed
    · rintro ⟨config, first, fails⟩ other found
      obtain rfl : config = other := Option.some.inj (first.symm.trans found)
      exact fails
  · rcases refreshRuleProviders_of_duplicate manager load order distinct with ⟨error, refused⟩
    rw [refused]
    exact iff_of_true (fun _ => rfl) (Or.inl distinct)

end Reload

namespace Router

/-- Nothing that a request can notice is different. -/
structure SameAs (after before : Router) : Prop where
  rules : after.rules = before.rules
  defaults : after.defaults = before.defaults
  providers : ∀ name, after.providers.lookup name = before.providers.lookup name

variable (router : Router) {Value : Type} (decoders : Decoders Value)
  (load : RuleProviderConfig → Except Error RuleIndex) (order : HashOrder)
  (config : Config Value) (configured : List RuleProviderConfig)

/-- A failing reload leaves the router as it was exactly if the rules do not
compile or, where they do, there was nothing to write before the failure. -/
theorem reload_all_or_nothing_iff :
    (∀ error, (router.reload decoders load order config configured).1 = .error error →
        (router.reload decoders load order config configured).2.SameAs router) ↔
      (∃ error, compileRules decoders config.rules = .error error) ∨
        Loadable router.providers load configured ∨
          (compileRules decoders config.rules = .ok router.rules ∧
            resolveDefaultOutbounds config = router.defaults ∧
              RefusedAtOnce router.providers load order configured) := by
  rw [reload]
  cases compiled : compileRules decoders config.rules with
  | error error =>
      exact iff_of_true (fun _ _ => ⟨rfl, rfl, fun _ => rfl⟩) (Or.inl ⟨error, rfl⟩)
  | ok rules =>
      rw [or_iff_right (by rintro ⟨_, ⟨⟩⟩)]
      cases outcome : (refreshRuleProviders load order router.providers configured).1 with
      | ok value =>
          exact iff_of_true (by rintro _ ⟨⟩) (Or.inl (refresh_ok_iff_loadable.mp outcome))
      | error error =>
          have failed : ¬ Loadable router.providers load configured := by
            rw [← refresh_ok_iff_loadable, outcome]
            rintro ⟨⟩
          rw [or_iff_right failed, ← unchanged_iff_refusedAtOnce outcome]
          constructor
          · intro atomic
            rcases atomic error rfl with ⟨sameRules, sameDefaults, sameProviders⟩
            exact ⟨congrArg Except.ok sameRules, sameDefaults, sameProviders⟩
          · rintro ⟨sameRules, sameDefaults, sameProviders⟩ _ _
            exact ⟨Except.ok.inj sameRules, sameDefaults, sameProviders⟩

/-- Decoders for configurations without nested rules, patterns or networks. -/
def plainDecoders : Decoders Empty where
  fromValue value := nomatch value
  buildRegex _ := .error "unsupported"
  parseNet _ := .error "invalid IP address syntax"

/-- Send everything to one outbound. -/
def catchAll (outbound : String) : Config Empty where
  outbounds := [⟨.socks5, outbound⟩]
  rules := [⟨.match, "", outbound, false, []⟩]

/-- A provider that is read from a file. -/
def adsProvider : RuleProviderConfig where
  name := "ads"
  providerType := .file
  behavior := .domain
  url := none
  path := some "ads.txt"
  interval := 86400

/-- A file that is not there. -/
def unreadable (_ : RuleProviderConfig) : Except Error RuleIndex :=
  .error (.config "Failed to read rule file 'ads.txt': No such file or directory (os error 2)")

/-- Maps are iterated as they were filled. -/
def insertionOrder : HashOrder where
  iterate entries := entries
  perm entries := .refl entries

/-- The reload reports that it cannot read the provider, and the new rules are
in force. -/
theorem failed_reload_switches_rules :
    ∃ router, Router.new plainDecoders unreadable (catchAll "old") [] = .ok router ∧
      ∃ error,
        (router.reload plainDecoders unreadable insertionOrder (catchAll "new")
          [adsProvider]).1 = .error error ∧
        ¬ (router.reload plainDecoders unreadable insertionOrder (catchAll "new")
          [adsProvider]).2.SameAs router := by
  refine ⟨_, rfl, _, rfl, ?_⟩
  intro same
  have switched := congrArg (List.map fun rule => rule.label.outbound) same.rules
  exact absurd switched (by decide)

end Router

end Corduit.Engine
