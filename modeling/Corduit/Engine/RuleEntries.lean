import Corduit.Engine.RuleProvider

/-!
# Rule entries

The entries of a rule set, the index they are compiled to, and the meaning of
one entry taken by itself.  The index folds patterns and queries once; the
meaning of an entry compares each of them as it was authored.  Parsing a
network is a function from outside; regular expressions are the sets of texts
they match.
-/

namespace Corduit.Engine

open Netstack Text

/-- The kinds of entries. -/
inductive ClassicalRuleType where
  | domain
  | domainSuffix
  | domainKeyword
  | domainRegex
  | ipCidr
  | srcIpCidr
  | processName
  deriving DecidableEq, Repr

/-- One entry as authored. -/
inductive CompiledRuleEntry where
  | domain (pattern : String)
  | domainSuffix (pattern : String)
  | domainKeyword (pattern : String)
  | domainRegex (regex : String → Bool)
  | ipCidr (network : IpNet)
  | classical (ruleType : ClassicalRuleType) (pattern : String) (regex : Option (String → Bool))

namespace RuleIndex

section Compile

variable (parseNet : String → Except String IpNet)

/-- File one entry. -/
def add (index : RuleIndex) : CompiledRuleEntry → RuleIndex
  | .domain pattern =>
      if pattern.isEmpty then index
      else { index with exact := index.exact.insert (toAsciiLowercase pattern) }
  | .domainSuffix pattern =>
      if pattern.isEmpty then index
      else { index with suffixes := index.suffixes.insert (toAsciiLowercase pattern) }
  | .domainKeyword pattern =>
      if pattern.isEmpty then index
      else { index with keywords := index.keywords ++ [toAsciiLowercase pattern] }
  | .domainRegex regex => { index with regexes := index.regexes ++ [regex] }
  | .ipCidr network => { index with dstNets := index.dstNets ++ [network] }
  | .classical ruleType pattern regex =>
      match ruleType with
      | .domain =>
          if pattern.isEmpty then index
          else { index with exact := index.exact.insert (toAsciiLowercase pattern) }
      | .domainSuffix =>
          if pattern.isEmpty then index
          else { index with suffixes := index.suffixes.insert (toAsciiLowercase pattern) }
      | .domainKeyword =>
          if pattern.isEmpty then index
          else { index with keywords := index.keywords ++ [toAsciiLowercase pattern] }
      | .domainRegex =>
          match regex with
          | some regex => { index with regexes := index.regexes ++ [regex] }
          | none =>
              { index with
                rejected := index.rejected ++ [s!"DOMAIN-REGEX '{pattern}' is not a valid regex"] }
      | .ipCidr =>
          match parseNet (trim pattern) with
          | .ok network => { index with dstNets := index.dstNets ++ [network] }
          | .error error =>
              { index with rejected := index.rejected ++ [s!"IP-CIDR '{pattern}': {error}"] }
      | .srcIpCidr =>
          match parseNet (trim pattern) with
          | .ok network => { index with srcNets := index.srcNets ++ [network] }
          | .error error =>
              { index with rejected := index.rejected ++ [s!"SRC-IP-CIDR '{pattern}': {error}"] }
      | .processName =>
          if pattern.isEmpty then index
          else { index with processNames := index.processNames ++ [toAsciiLowercase pattern] }

/-- The index of the entries. -/
def compile (entries : List CompiledRuleEntry) : RuleIndex :=
  entries.foldl (add parseNet) {}

end Compile

end RuleIndex

/-- `contains_ignore_ascii_case`.  The bytes of a needle occur in a text only at
characters, so the positions of the source are character positions. -/
def containsIgnoreAsciiCase (haystack needle : String) : Bool :=
  if needle.isEmpty then
    true
  else if needle.length > haystack.length then
    false
  else
    (List.range (haystack.length - needle.length + 1)).any fun start =>
      eqIgnoreAsciiCase (String.ofList ((haystack.toList.drop start).take needle.length)) needle

/-- The test for a domain suffix; the character in front of the pattern is the
separator. -/
def endsOnLabel (domain pattern : String) : Bool :=
  eqIgnoreAsciiCase domain pattern ||
    (domain.length > pattern.length &&
      domain.toList[domain.length - pattern.length - 1]? = some '.' &&
      eqIgnoreAsciiCase (String.ofList (domain.toList.drop (domain.length - pattern.length)))
        pattern)

/-- The domain without the dots at its end. -/
def trimDots (domain : String) : String :=
  trimEndMatches (· = '.') domain

namespace RuleMatchInput

/-- The addresses that may be looked at. -/
def dstCandidates (input : RuleMatchInput) : List IpAddr :=
  if input.noResolve then [] else input.resolved

/-- The addresses an `IP-CIDR` entry compares against. -/
def dstAddresses (input : RuleMatchInput) : List IpAddr :=
  input.dstIp.toList ++ input.dstCandidates

end RuleMatchInput

namespace RuleProvider

/-- The base name, up to case and extension. -/
def matchesProcessName (pattern processName : String) : Bool :=
  let processBasename := afterLast isPathSeparator processName
  if eqIgnoreAsciiCase processBasename pattern then
    true
  else
    let patternStem := (stripSuffix ".exe" pattern).getD pattern
    let processStem := (stripSuffix ".exe" processBasename).getD processBasename
    eqIgnoreAsciiCase patternStem processStem

/-- What an entry means. -/
def matchesEntry (parseNet : String → Except String IpNet) (entry : CompiledRuleEntry)
    (input : RuleMatchInput) : Bool :=
  match entry with
  | .domain pattern =>
      input.domain.any fun domain => eqIgnoreAsciiCase (trimDots domain) pattern
  | .domainSuffix pattern => input.domain.any fun domain => endsOnLabel (trimDots domain) pattern
  | .domainKeyword pattern => input.domain.any fun domain => containsIgnoreAsciiCase domain pattern
  | .domainRegex regex => input.domain.any regex
  | .ipCidr network => input.dstAddresses.any network.contains
  | .classical ruleType pattern regex =>
      match ruleType with
      | .domain => input.domain.any fun domain => eqIgnoreAsciiCase (trimDots domain) pattern
      | .domainSuffix => input.domain.any fun domain => endsOnLabel (trimDots domain) pattern
      | .domainKeyword =>
          input.domain.any fun domain => containsIgnoreAsciiCase domain pattern
      | .domainRegex =>
          match regex with
          | some regex => input.domain.any regex
          | none => false
      | .ipCidr =>
          match parseNet (trim pattern) with
          | .ok network => input.dstAddresses.any network.contains
          | .error _ => false
      | .srcIpCidr =>
          match parseNet (trim pattern) with
          | .ok network => input.srcIp.any network.contains
          | .error _ => false
      | .processName => input.processName.any (matchesProcessName pattern)

end RuleProvider

/-- What an entry asks for, however it was written. -/
inductive EntryKind where
  | domain (pattern : String)
  | domainSuffix (pattern : String)
  | domainKeyword (pattern : String)
  | domainRegex (regex : String → Bool)
  | dstNet (network : IpNet)
  | srcNet (network : IpNet)
  | processName (pattern : String)
  /-- An entry that cannot match. -/
  | unusable

section Kinds

variable (parseNet : String → Except String IpNet)

/-- The kind of an entry. -/
def CompiledRuleEntry.kind : CompiledRuleEntry → EntryKind
  | .domain pattern => .domain pattern
  | .domainSuffix pattern => .domainSuffix pattern
  | .domainKeyword pattern => .domainKeyword pattern
  | .domainRegex regex => .domainRegex regex
  | .ipCidr network => .dstNet network
  | .classical .domain pattern _ => .domain pattern
  | .classical .domainSuffix pattern _ => .domainSuffix pattern
  | .classical .domainKeyword pattern _ => .domainKeyword pattern
  | .classical .domainRegex _ (some regex) => .domainRegex regex
  | .classical .domainRegex _ none => .unusable
  | .classical .ipCidr pattern _ =>
      match parseNet (trim pattern) with
      | .ok network => .dstNet network
      | .error _ => .unusable
  | .classical .srcIpCidr pattern _ =>
      match parseNet (trim pattern) with
      | .ok network => .srcNet network
      | .error _ => .unusable
  | .classical .processName pattern _ => .processName pattern

namespace EntryKind

/-- What the index does for one kind: it drops empty patterns and asks about the
folded query. -/
def indexed (kind : EntryKind) (input : RuleMatchInput) : Bool :=
  match kind with
  | domain pattern => !pattern.isEmpty && input.domain.any fun query =>
      toAsciiLowercase (trimDots query) = toAsciiLowercase pattern
  | domainSuffix pattern => !pattern.isEmpty && input.domain.any fun query =>
      suffixMatches [toAsciiLowercase pattern] (toAsciiLowercase (trimDots query))
  | domainKeyword pattern => !pattern.isEmpty && input.domain.any fun query =>
      Text.contains (toAsciiLowercase pattern) (toAsciiLowercase (trimDots query))
  | domainRegex regex => input.domain.any fun query => regex (toAsciiLowercase (trimDots query))
  | dstNet network => input.dstAddresses.any network.contains
  | srcNet network => input.srcIp.any network.contains
  | processName pattern => !pattern.isEmpty &&
      input.processName.any (RuleIndex.matchesProcess { processNames := [toAsciiLowercase pattern] })
  | unusable => false

/-- The meaning of one kind. -/
def direct (kind : EntryKind) (input : RuleMatchInput) : Bool :=
  match kind with
  | domain pattern =>
      input.domain.any fun query => eqIgnoreAsciiCase (trimDots query) pattern
  | domainSuffix pattern => input.domain.any fun query => endsOnLabel (trimDots query) pattern
  | domainKeyword pattern => input.domain.any fun query => containsIgnoreAsciiCase query pattern
  | domainRegex regex => input.domain.any regex
  | dstNet network => input.dstAddresses.any network.contains
  | srcNet network => input.srcIp.any network.contains
  | processName pattern => input.processName.any (RuleProvider.matchesProcessName pattern)
  | unusable => false

end EntryKind

theorem matchesEntry_eq (entry : CompiledRuleEntry) (input : RuleMatchInput) :
    RuleProvider.matchesEntry parseNet entry input = (entry.kind parseNet).direct input := by
  cases entry with
  | classical ruleType pattern regex =>
      cases ruleType with
      | domainRegex => cases regex <;> rfl
      | ipCidr =>
          simp only [RuleProvider.matchesEntry, CompiledRuleEntry.kind]
          cases parseNet (trim pattern) <;> rfl
      | srcIpCidr =>
          simp only [RuleProvider.matchesEntry, CompiledRuleEntry.kind]
          cases parseNet (trim pattern) <;> rfl
      | _ => rfl
  | _ => rfl

theorem suffixMatches_iff {suffixes : List String} {domain : String} :
    suffixMatches suffixes domain = true ↔
      ∃ suffix ∈ suffixes, suffix.toList ∈ domain.toList :: parentDomains domain.toList := by
  unfold suffixMatches
  constructor
  · intro found
    rcases List.any_eq_true.mp (Bool.and_eq_true_iff.mp found).2 with ⟨rest, member, contained⟩
    exact ⟨String.ofList rest, List.contains_iff_mem.mp contained, by
      rwa [String.toList_ofList]⟩
  · rintro ⟨suffix, member, label⟩
    refine Bool.and_eq_true_iff.mpr ⟨by cases suffixes <;> simp_all, ?_⟩
    refine List.any_eq_true.mpr ⟨suffix.toList, label, ?_⟩
    rwa [String.ofList_toList, List.contains_iff_mem]

theorem contains_insert (texts : List String) (added text : String) :
    (texts.insert added).contains text = (texts.contains text || decide (text = added)) := by
  rw [Bool.eq_iff_iff, Bool.or_eq_true, List.contains_iff_mem, List.contains_iff_mem,
    List.mem_insert_iff, decide_eq_true_iff]
  exact or_comm

theorem suffixMatches_insert (suffixes : List String) (suffix domain : String) :
    suffixMatches (suffixes.insert suffix) domain =
      (suffixMatches suffixes domain || suffixMatches [suffix] domain) := by
  rw [Bool.eq_iff_iff, Bool.or_eq_true, suffixMatches_iff, suffixMatches_iff, suffixMatches_iff]
  simp only [List.mem_insert_iff, List.mem_singleton]
  grind

section Fields

variable {index index' : RuleIndex} (input : RuleMatchInput)

section

variable {α : Type} {first second joined : α → Bool}
  (joins : ∀ item, joined item = (first item || second item))

include joins

theorem option_any_or (item : Option α) :
    item.any joined = (item.any first || item.any second) := by
  cases item with
  | none => rfl
  | some item => exact joins item

theorem list_any_or (items : List α) :
    items.any joined = (items.any first || items.any second) := by
  induction items with
  | nil => rfl
  | cons item items ih =>
      rw [List.any_cons, List.any_cons, List.any_cons, ih, joins]
      simp only [Bool.or_assoc, Bool.or_left_comm]

end

theorem matches_eq (index : RuleIndex) : index.matches input =
    (input.domain.any index.matchesDomain || input.dstAddresses.any index.matchesDst ||
      (input.srcIp.any fun address => index.srcNets.any fun network => network.contains address) ||
      input.processName.any index.matchesProcess) := by
  have addresses : input.dstAddresses.any index.matchesDst =
      (input.dstIp.any index.matchesDst ||
        (!input.noResolve && input.resolved.any index.matchesDst)) := by
    unfold RuleMatchInput.dstAddresses RuleMatchInput.dstCandidates
    cases input.dstIp <;> cases input.noResolve <;> simp
  rw [RuleIndex.matches, addresses, ← Bool.or_assoc]

theorem matches_of_domain {test : String → Bool}
    (domain : ∀ query, index'.matchesDomain query = (index.matchesDomain query || test query))
    (dst : index'.dstNets = index.dstNets) (src : index'.srcNets = index.srcNets)
    (process : index'.processNames = index.processNames) :
    index'.matches input = (index.matches input || input.domain.any test) := by
  have dst_eq : index'.matchesDst = index.matchesDst := by
    unfold RuleIndex.matchesDst
    rw [dst]
  have process_eq : index'.matchesProcess = index.matchesProcess := by
    unfold RuleIndex.matchesProcess
    rw [process]
  rw [matches_eq, matches_eq, option_any_or domain, dst_eq, src, process_eq]
  simp only [Bool.or_assoc, Bool.or_comm, Bool.or_left_comm]

theorem matches_of_dst {test : IpAddr → Bool} (domain : index'.matchesDomain = index.matchesDomain)
    (dst : ∀ address, index'.matchesDst address = (index.matchesDst address || test address))
    (src : index'.srcNets = index.srcNets) (process : index'.processNames = index.processNames) :
    index'.matches input = (index.matches input || input.dstAddresses.any test) := by
  have process_eq : index'.matchesProcess = index.matchesProcess := by
    unfold RuleIndex.matchesProcess
    rw [process]
  rw [matches_eq, matches_eq, domain, list_any_or dst, src, process_eq]
  simp only [Bool.or_assoc, Bool.or_comm, Bool.or_left_comm]

theorem matches_of_src {network : IpNet} (domain : index'.matchesDomain = index.matchesDomain)
    (dst : index'.dstNets = index.dstNets) (src : index'.srcNets = index.srcNets ++ [network])
    (process : index'.processNames = index.processNames) :
    index'.matches input = (index.matches input || input.srcIp.any network.contains) := by
  have dst_eq : index'.matchesDst = index.matchesDst := by
    unfold RuleIndex.matchesDst
    rw [dst]
  have process_eq : index'.matchesProcess = index.matchesProcess := by
    unfold RuleIndex.matchesProcess
    rw [process]
  have src_eq : (input.srcIp.any fun address => index'.srcNets.any (·.contains address)) =
      ((input.srcIp.any fun address => index.srcNets.any (·.contains address)) ||
        input.srcIp.any network.contains) := option_any_or (by simp [src]) input.srcIp
  rw [matches_eq, matches_eq, domain, dst_eq, src_eq, process_eq]
  simp only [Bool.or_assoc, Bool.or_comm, Bool.or_left_comm]

theorem matches_of_process {test : String → Bool}
    (domain : index'.matchesDomain = index.matchesDomain)
    (dst : index'.dstNets = index.dstNets) (src : index'.srcNets = index.srcNets)
    (process : ∀ name, index'.matchesProcess name = (index.matchesProcess name || test name)) :
    index'.matches input = (index.matches input || input.processName.any test) := by
  have dst_eq : index'.matchesDst = index.matchesDst := by
    unfold RuleIndex.matchesDst
    rw [dst]
  rw [matches_eq, matches_eq, domain, dst_eq, src, option_any_or process]
  simp only [Bool.or_assoc]

end Fields

section Add

variable (index : RuleIndex) (input : RuleMatchInput)

theorem matches_unless {empty : Bool} {index' : RuleIndex} {answer : Bool}
    (added : index'.matches input = (index.matches input || answer)) :
    RuleIndex.matches (if empty then index else index') input =
      (index.matches input || (!empty && answer)) := by
  cases empty with
  | true => exact (Bool.or_false _).symm
  | false => exact added

theorem matches_add_domain (pattern : String) :
    RuleIndex.matches (if pattern.isEmpty then index
        else { index with exact := index.exact.insert (toAsciiLowercase pattern) }) input =
      (index.matches input || (EntryKind.domain pattern).indexed input) := by
  refine matches_unless index input (matches_of_domain input (fun query => ?_) rfl rfl rfl)
  simp only [RuleIndex.matchesDomain, contains_insert, trimDots, Bool.or_assoc, Bool.or_comm]
  rfl

theorem matches_add_domainSuffix (pattern : String) :
    RuleIndex.matches (if pattern.isEmpty then index
        else { index with suffixes := index.suffixes.insert (toAsciiLowercase pattern) }) input =
      (index.matches input || (EntryKind.domainSuffix pattern).indexed input) := by
  refine matches_unless index input (matches_of_domain input (fun query => ?_) rfl rfl rfl)
  simp only [RuleIndex.matchesDomain, suffixMatches_insert, trimDots, Bool.or_assoc,
    Bool.or_comm, Bool.or_left_comm]

theorem matches_add_domainKeyword (pattern : String) :
    RuleIndex.matches (if pattern.isEmpty then index
        else { index with keywords := index.keywords ++ [toAsciiLowercase pattern] }) input =
      (index.matches input || (EntryKind.domainKeyword pattern).indexed input) := by
  refine matches_unless index input (matches_of_domain input (fun query => ?_) rfl rfl rfl)
  simp only [RuleIndex.matchesDomain, List.any_append, List.any_cons, List.any_nil,
    trimDots, Bool.false_or, Bool.or_assoc, Bool.or_comm, Bool.or_left_comm]

theorem matches_add_domainRegex (regex : String → Bool) :
    RuleIndex.matches { index with regexes := index.regexes ++ [regex] } input =
      (index.matches input || (EntryKind.domainRegex regex).indexed input) := by
  refine matches_of_domain input (fun query => ?_) rfl rfl rfl
  simp only [RuleIndex.matchesDomain, List.any_append, List.any_cons, List.any_nil, trimDots,
    Bool.or_false, Bool.or_assoc]

theorem matches_add_dstNet (network : IpNet) :
    RuleIndex.matches { index with dstNets := index.dstNets ++ [network] } input =
      (index.matches input || (EntryKind.dstNet network).indexed input) := by
  refine matches_of_dst input rfl (fun address => ?_) rfl rfl
  simp [RuleIndex.matchesDst]

theorem matches_add_srcNet (network : IpNet) :
    RuleIndex.matches { index with srcNets := index.srcNets ++ [network] } input =
      (index.matches input || (EntryKind.srcNet network).indexed input) :=
  matches_of_src input rfl rfl rfl rfl

theorem matches_add_processName (pattern : String) :
    RuleIndex.matches (if pattern.isEmpty then index
        else { index with
          processNames := index.processNames ++ [toAsciiLowercase pattern] }) input =
      (index.matches input || (EntryKind.processName pattern).indexed input) := by
  refine matches_unless index input (matches_of_process input rfl rfl rfl (fun name => ?_))
  simp only [RuleIndex.matchesProcess, List.any_append, List.any_cons, List.any_nil, Bool.or_false]

theorem matches_add (entry : CompiledRuleEntry) :
    (index.add parseNet entry).matches input =
      (index.matches input || (entry.kind parseNet).indexed input) := by
  have unusable : index.matches input =
      (index.matches input || EntryKind.unusable.indexed input) :=
    (Bool.or_false _).symm
  cases entry with
  | domain pattern => exact matches_add_domain index input pattern
  | domainSuffix pattern => exact matches_add_domainSuffix index input pattern
  | domainKeyword pattern => exact matches_add_domainKeyword index input pattern
  | domainRegex regex => exact matches_add_domainRegex index input regex
  | ipCidr network => exact matches_add_dstNet index input network
  | classical ruleType pattern regex =>
      cases ruleType with
      | domain => exact matches_add_domain index input pattern
      | domainSuffix => exact matches_add_domainSuffix index input pattern
      | domainKeyword => exact matches_add_domainKeyword index input pattern
      | domainRegex =>
          cases regex with
          | none => exact unusable
          | some regex => exact matches_add_domainRegex index input regex
      | ipCidr =>
          simp only [RuleIndex.add, CompiledRuleEntry.kind]
          cases parseNet (trim pattern) with
          | error error => exact unusable
          | ok network => exact matches_add_dstNet index input network
      | srcIpCidr =>
          simp only [RuleIndex.add, CompiledRuleEntry.kind]
          cases parseNet (trim pattern) with
          | error error => exact unusable
          | ok network => exact matches_add_srcNet index input network
      | processName => exact matches_add_processName index input pattern

end Add

theorem matches_compile (entries : List CompiledRuleEntry) (input : RuleMatchInput) :
    (RuleIndex.compile parseNet entries).matches input =
      entries.any fun entry => (entry.kind parseNet).indexed input := by
  have folded : ∀ index : RuleIndex,
      (entries.foldl (RuleIndex.add parseNet) index).matches input =
        (index.matches input ||
          entries.any fun entry => (entry.kind parseNet).indexed input) := by
    induction entries with
    | nil => simp
    | cons entry entries ih =>
        intro index
        rw [List.foldl_cons, ih, matches_add, List.any_cons, Bool.or_assoc]
  rw [RuleIndex.compile, folded]
  have empty : RuleIndex.matches {} input = false := by
    have domains : RuleIndex.matchesDomain {} = fun _ => false := rfl
    have addresses : RuleIndex.matchesDst {} = fun _ => false := rfl
    have processes : RuleIndex.matchesProcess {} = fun _ => false := rfl
    simp [RuleIndex.matches, domains, addresses, processes]
  rw [empty, Bool.false_or]

end Kinds

section Readings

variable {query pattern : String}

theorem mem_parentDomains {rest chars : List Char} :
    rest ∈ parentDomains chars ↔ ∃ front, chars = front ++ '.' :: rest := by
  induction chars with
  | nil => simp [parentDomains]
  | cons char chars ih =>
      by_cases dot : char = '.'
      · rw [parentDomains, if_pos dot, List.mem_cons, ih]
        constructor
        · rintro (rfl | ⟨front, rfl⟩)
          · exact ⟨[], by rw [dot, List.nil_append]⟩
          · exact ⟨char :: front, rfl⟩
        · rintro ⟨front, split⟩
          cases front with
          | nil => exact Or.inl (List.cons.inj split).2.symm
          | cons _ front => exact Or.inr ⟨front, (List.cons.inj split).2⟩
      · rw [parentDomains, if_neg dot, ih]
        constructor
        · rintro ⟨front, rfl⟩
          exact ⟨char :: front, rfl⟩
        · rintro ⟨front, split⟩
          cases front with
          | nil => exact absurd (List.cons.inj split).1 dot
          | cons _ front => exact ⟨front, (List.cons.inj split).2⟩

/-- A domain ends in the pattern on a label boundary exactly when the folded
pattern is among the ends of the folded domain. -/
theorem endsOnLabel_iff : endsOnLabel query pattern = true ↔
    suffixMatches [toAsciiLowercase pattern] (toAsciiLowercase query) = true := by
  have ends : suffixMatches [toAsciiLowercase pattern] (toAsciiLowercase query) = true ↔
      query.toList.map Char.toLower = pattern.toList.map Char.toLower ∨
        ∃ front, query.toList.map Char.toLower =
          front ++ '.' :: pattern.toList.map Char.toLower := by
    rw [suffixMatches_iff]
    simp [mem_parentDomains, eq_comm]
  rw [ends, exists_map_eq_append_dot_iff, endsOnLabel, Bool.or_eq_true, Bool.and_eq_true,
    Bool.and_eq_true, eqIgnoreAsciiCase_iff, eqIgnoreAsciiCase_iff, toAsciiLowercase_eq_iff,
    toAsciiLowercase_eq_iff, String.toList_ofList, decide_eq_true_iff, decide_eq_true_iff]
  simp only [String.length_toList]

theorem containsIgnoreAsciiCase_iff : containsIgnoreAsciiCase query pattern = true ↔
    Text.contains (toAsciiLowercase pattern) (toAsciiLowercase query) = true := by
  rw [Text.contains, decide_eq_true_iff, toList_toAsciiLowercase, toList_toAsciiLowercase]
  unfold containsIgnoreAsciiCase
  split
  · rename_i empty
    rw [String.isEmpty_iff.mp empty]
    exact iff_of_true rfl (List.nil_infix)
  split
  · rename_i longer
    refine iff_of_false Bool.false_ne_true fun part => ?_
    have bound := part.length_le
    rw [List.length_map, List.length_map, String.length_toList, String.length_toList] at bound
    omega
  rename_i fits
  rw [List.any_eq_true]
  constructor
  · rintro ⟨start, _, same⟩
    rw [eqIgnoreAsciiCase_iff, toAsciiLowercase_eq_iff, String.toList_ofList] at same
    rw [← same]
    exact ((List.take_prefix _ _).isInfix.trans (List.drop_suffix _ _).isInfix).map Char.toLower
  · rintro ⟨front, back, split⟩
    have lengths := congrArg List.length split
    simp only [List.length_append, List.length_map, String.length_toList] at lengths
    refine ⟨front.length, by rw [List.mem_range]; omega, ?_⟩
    rw [eqIgnoreAsciiCase_iff, toAsciiLowercase_eq_iff, String.toList_ofList, List.map_take,
      List.map_drop, ← split, List.append_assoc, List.drop_left]
    exact List.take_left' (by rw [List.length_map, String.length_toList])

theorem isPathSeparator_toLower (char : Char) :
    isPathSeparator char.toLower = isPathSeparator char := by
  simp only [isPathSeparator, @toLower_eq_iff _ '/' (by decide) (by decide),
    @toLower_eq_iff _ '\\' (by decide) (by decide)]

/-- The index asks about the folded process name what the meaning asks about the
name. -/
theorem matchesProcess_iff {process : String} :
    RuleIndex.matchesProcess { processNames := [toAsciiLowercase pattern] } process =
      RuleProvider.matchesProcessName (toAsciiLowercase pattern) (toAsciiLowercase process) := by
  rw [Bool.eq_iff_iff]
  simp only [RuleIndex.matchesProcess, RuleProvider.matchesProcessName, List.any_cons,
    List.any_nil, Bool.or_false, afterLast_toAsciiLowercase isPathSeparator_toLower,
    eqIgnoreAsciiCase, toAsciiLowercase_idem, toAsciiLowercase_stripSuffix]
  grind

theorem exists_toList_eq_trimDots_append (query : String) :
    ∃ dots, query.toList = (trimDots query).toList ++ dots := by
  refine ⟨(query.toList.reverse.takeWhile (· = '.')).reverse, ?_⟩
  rw [trimDots, trimEndMatches, String.toList_ofList, ← List.reverse_append,
    List.takeWhile_append_dropWhile, List.reverse_reverse]

theorem containsIgnoreAsciiCase_of_trimDots
    (inside : containsIgnoreAsciiCase (trimDots query) pattern = true) :
    containsIgnoreAsciiCase query pattern = true := by
  rcases exists_toList_eq_trimDots_append query with ⟨dots, split⟩
  rw [containsIgnoreAsciiCase_iff, Text.contains, decide_eq_true_iff, toList_toAsciiLowercase,
    toList_toAsciiLowercase] at inside ⊢
  rw [split, List.map_append]
  exact inside.trans (List.prefix_append _ _).isInfix

/-- The empty pattern ends no domain but the empty one: in front of it stands no
dot. -/
theorem endsOnLabel_trimDots_empty :
    endsOnLabel (trimDots query) "" = true ↔ trimDots query = "" := by
  have last : (trimDots query).toList.getLast? ≠ some '.' := by
    rw [trimDots, trimEndMatches, String.toList_ofList, List.getLast?_reverse]
    intro first
    have stops := List.head?_dropWhile_not (fun char => decide (char = '.')) query.toList.reverse
    rw [first] at stops
    simp at stops
  constructor
  · intro ends
    rw [endsOnLabel, Bool.or_eq_true, Bool.and_eq_true, Bool.and_eq_true] at ends
    rcases ends with same | ⟨⟨_, dot⟩, _⟩
    · rwa [eqIgnoreAsciiCase_iff, show toAsciiLowercase "" = "" from rfl,
        toAsciiLowercase_eq_empty] at same
    · refine absurd (of_decide_eq_true dot) ?_
      rwa [List.getLast?_eq_getElem?, String.length_toList] at last
  · intro empty
    rw [empty]
    decide

end Readings

/-- The index and the meaning agree that the entry matches. -/
def EntryKind.Settled (kind : EntryKind) (input : RuleMatchInput) : Prop :=
  match kind with
  | domain pattern => pattern ≠ "" ∧ ∃ query ∈ input.domain,
      toAsciiLowercase (trimDots query) = toAsciiLowercase pattern
  | domainSuffix pattern => pattern ≠ "" ∧ ∃ query ∈ input.domain,
      endsOnLabel (trimDots query) pattern
  | domainKeyword pattern => pattern ≠ "" ∧ ∃ query ∈ input.domain,
      containsIgnoreAsciiCase (trimDots query) pattern
  | domainRegex regex => ∃ query ∈ input.domain,
      regex query ∧ regex (toAsciiLowercase (trimDots query))
  | dstNet network => ∃ address ∈ input.dstAddresses, network.contains address
  | srcNet network => ∃ address ∈ input.srcIp, network.contains address
  | processName pattern => pattern ≠ "" ∧ ∃ process ∈ input.processName,
      RuleProvider.matchesProcessName pattern process ∧
        RuleProvider.matchesProcessName (toAsciiLowercase pattern) (toAsciiLowercase process)
  | unusable => False

/-- Only the meaning says that the entry matches: an empty pattern, a keyword
that reaches into the dots at the end, a regular expression that needs them or
a capital, or a process name with an extension in capitals. -/
def EntryKind.OnlyDirect (kind : EntryKind) (input : RuleMatchInput) : Prop :=
  match kind with
  | domain pattern => pattern = "" ∧ ∃ query ∈ input.domain, trimDots query = ""
  | domainSuffix pattern => pattern = "" ∧ ∃ query ∈ input.domain, trimDots query = ""
  | domainKeyword pattern => ∃ query ∈ input.domain, containsIgnoreAsciiCase query pattern ∧
      (pattern = "" ∨ ¬containsIgnoreAsciiCase (trimDots query) pattern)
  | domainRegex regex => ∃ query ∈ input.domain,
      regex query ∧ ¬regex (toAsciiLowercase (trimDots query))
  | processName pattern => ∃ process ∈ input.processName,
      RuleProvider.matchesProcessName pattern process ∧
        (pattern = "" ∨ ¬RuleProvider.matchesProcessName (toAsciiLowercase pattern)
          (toAsciiLowercase process))
  | _ => False

/-- Only the index says that the entry matches: a regular expression that the
dots at the end or a capital keep from matching, or a process name with an
extension in capitals. -/
def EntryKind.OnlyIndexed (kind : EntryKind) (input : RuleMatchInput) : Prop :=
  match kind with
  | domainRegex regex => ∃ query ∈ input.domain,
      ¬regex query ∧ regex (toAsciiLowercase (trimDots query))
  | processName pattern => pattern ≠ "" ∧ ∃ process ∈ input.processName,
      ¬RuleProvider.matchesProcessName pattern process ∧
        RuleProvider.matchesProcessName (toAsciiLowercase pattern) (toAsciiLowercase process)
  | _ => False

theorem isEmpty_eq_false_iff {pattern : String} : (!pattern.isEmpty) = true ↔ pattern ≠ "" := by
  rw [Bool.not_eq_true', ← Bool.not_eq_true, String.isEmpty_iff]

theorem EntryKind.direct_iff (kind : EntryKind) (input : RuleMatchInput) :
    kind.direct input = true ↔ kind.Settled input ∨ kind.OnlyDirect input := by
  cases kind with
  | domain pattern =>
      simp only [direct, Settled, OnlyDirect, Option.any_eq_true, eqIgnoreAsciiCase_iff,
        Option.mem_def]
      by_cases empty : pattern = ""
      · have nothing : ∀ query, toAsciiLowercase (trimDots query) = toAsciiLowercase pattern ↔
            trimDots query = "" := fun query => by
          rw [empty, show toAsciiLowercase "" = "" from rfl, toAsciiLowercase_eq_empty]
        simp [empty, ← nothing]
      · simp [empty]
  | domainSuffix pattern =>
      simp only [direct, Settled, OnlyDirect, Option.any_eq_true, Option.mem_def]
      by_cases empty : pattern = ""
      · simp [empty, endsOnLabel_trimDots_empty]
      · simp [empty]
  | domainKeyword pattern =>
      simp only [direct, Settled, OnlyDirect, Option.any_eq_true, Option.mem_def]
      have reaches : ∀ query, containsIgnoreAsciiCase (trimDots query) pattern = true →
          containsIgnoreAsciiCase query pattern = true := fun query =>
        containsIgnoreAsciiCase_of_trimDots
      grind
  | domainRegex regex =>
      simp only [direct, Settled, OnlyDirect, Option.any_eq_true, Option.mem_def]
      grind
  | dstNet network => simp [direct, Settled, OnlyDirect]
  | srcNet network => simp [direct, Settled, OnlyDirect, Option.any_eq_true]
  | processName pattern =>
      simp only [direct, Settled, OnlyDirect, Option.any_eq_true, Option.mem_def]
      grind
  | unusable => simp [direct, Settled, OnlyDirect]

theorem EntryKind.indexed_iff (kind : EntryKind) (input : RuleMatchInput) :
    kind.indexed input = true ↔ kind.Settled input ∨ kind.OnlyIndexed input := by
  cases kind with
  | domain pattern => simp [indexed, Settled, OnlyIndexed, Option.any_eq_true]
  | domainSuffix pattern =>
      simp [indexed, Settled, OnlyIndexed, Option.any_eq_true, endsOnLabel_iff]
  | domainKeyword pattern =>
      simp [indexed, Settled, OnlyIndexed, Option.any_eq_true, containsIgnoreAsciiCase_iff]
  | domainRegex regex =>
      simp only [indexed, Settled, OnlyIndexed, Option.any_eq_true, Option.mem_def]
      grind
  | dstNet network => simp [indexed, Settled, OnlyIndexed]
  | srcNet network => simp [indexed, Settled, OnlyIndexed, Option.any_eq_true]
  | processName pattern =>
      simp only [indexed, Settled, OnlyIndexed, Option.any_eq_true, Option.mem_def,
        matchesProcess_iff, Bool.and_eq_true, isEmpty_eq_false_iff]
      grind
  | unusable => simp [indexed, Settled, OnlyIndexed]

/-- The index answers a query as the entries do one by one exactly when some
entry matches in both readings, or an entry matches in the one reading alone
just when an entry matches in the other alone. -/
theorem compile_matches_eq_any_iff (parseNet : String → Except String IpNet)
    (entries : List CompiledRuleEntry) (input : RuleMatchInput) :
    ((RuleIndex.compile parseNet entries).matches input =
        entries.any fun entry => RuleProvider.matchesEntry parseNet entry input) ↔
      (∃ entry ∈ entries, (entry.kind parseNet).Settled input) ∨
        ((∃ entry ∈ entries, (entry.kind parseNet).OnlyDirect input) ↔
          ∃ entry ∈ entries, (entry.kind parseNet).OnlyIndexed input) := by
  rw [matches_compile, Bool.eq_iff_iff, List.any_eq_true, List.any_eq_true]
  simp only [matchesEntry_eq, EntryKind.direct_iff, EntryKind.indexed_iff, and_or_left, exists_or]
  by_cases settled : ∃ entry ∈ entries, (entry.kind parseNet).Settled input
  · simp [settled]
  · simp only [settled, false_or]
    exact iff_comm

/-- A process name with its extension in capitals: the index says that it is in
the set, the entry says that it is not. -/
theorem compile_matches_ne_any_process :
    let entry := CompiledRuleEntry.classical .processName "qbittorrent" none
    let input : RuleMatchInput := {
      domain := none, dstIp := none, resolved := [], noResolve := false, srcIp := none
      processName := some "qBittorrent.EXE" }
    (RuleIndex.compile (fun _ => .error "not a network") [entry]).matches input ≠
      [entry].any fun entry =>
        RuleProvider.matchesEntry (fun _ => .error "not a network") entry input := by
  decide +kernel

end Corduit.Engine
