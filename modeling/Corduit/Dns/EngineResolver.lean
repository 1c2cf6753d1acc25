import Corduit.Text.Core

/-!
# Domain rules

A profile spells "this name and everything under it" in several ways: bare, with
`+.`, with `*.`, with a dot in front.  The spelling is normalized to the bare
suffix, and a host matches the suffix on a label boundary, up to case and one
root dot.
-/

namespace Corduit.Text

/-- `str::strip_prefix`. -/
def stripPrefix (start text : String) : Option String :=
  if start.toList <+: text.toList then
    some (String.ofList (text.toList.drop start.length))
  else
    none

theorem toList_of_stripPrefix {start text rest : String}
    (taken : stripPrefix start text = some rest) :
    text.toList = start.toList ++ rest.toList := by
  rw [stripPrefix] at taken
  by_cases begins : start.toList <+: text.toList
  · rw [if_pos begins] at taken
    rcases begins with ⟨tail, split⟩
    rw [← Option.some.inj taken, String.toList_ofList, ← split, ← String.length_toList,
      List.drop_left]
  · rw [if_neg begins] at taken
    cases taken

end Corduit.Text

namespace Corduit.Dns

open Text

/-- A policy key without its marks. -/
def normalizeSuffix (key : String) : String :=
  let key := toAsciiLowercase (trim key)
  let key := ((stripPrefix "+." key).or (stripPrefix "*." key)).getD key
  trimEndMatches (· = '.') ((stripPrefix "." key).getD key)

/-- `suffix_matches`.  Folding keeps the length of a character, so the boundary
of the source is a character position. -/
def suffixMatches (host suffix : String) : Bool :=
  if suffix.isEmpty then
    true
  else
    let host := (stripSuffix "." host).getD host
    eqIgnoreAsciiCase host suffix ||
      (host.length > suffix.length &&
        host.toList[host.length - suffix.length - 1]? = some '.' &&
        eqIgnoreAsciiCase (String.ofList (host.toList.drop (host.length - suffix.length))) suffix)

/-- The name is the suffix, or the suffix behind a dot. -/
def OnLabel (suffix name : List Char) : Prop :=
  suffix = name ∨ ∃ front, name = front ++ '.' :: suffix

namespace OnLabel

variable {first second third : List Char}

theorem refl (name : List Char) : OnLabel name name :=
  Or.inl rfl

section

variable (inner : OnLabel first second)

include inner

theorem trans (outer : OnLabel second third) :
    OnLabel first third := by
  rcases inner with rfl | ⟨front, rfl⟩
  · exact outer
  · rcases outer with rfl | ⟨before, rfl⟩
    · exact Or.inr ⟨front, rfl⟩
    · exact Or.inr ⟨before ++ '.' :: front, by rw [List.append_assoc, List.cons_append]⟩

theorem length_le : first.length ≤ second.length := by
  rcases inner with rfl | ⟨front, rfl⟩
  · exact Nat.le_refl _
  · rw [List.length_append, List.length_cons]
    omega

theorem length_lt (other : first ≠ second) :
    first.length < second.length := by
  rcases inner with same | ⟨front, rfl⟩
  · exact absurd same other
  · rw [List.length_append, List.length_cons]
    omega

theorem getLast? (proper : first ≠ []) :
    second.getLast? = first.getLast? := by
  rcases inner with rfl | ⟨front, rfl⟩
  · rfl
  · rw [List.getLast?_append, List.getLast?_cons_of_ne_nil proper]
    cases last : first.getLast? with
    | none => exact absurd (List.getLast?_eq_none_iff.mp last) proper
    | some => rfl

end

theorem eq_nil (inner : OnLabel first []) : first = [] := by
  rcases inner with same | ⟨front, split⟩
  · exact same
  · cases front <;> cases split

end OnLabel

/-- The characters of a host that are matched: without one root dot, folded. -/
def hostChars (host : String) : List Char :=
  ((stripSuffix "." host).getD host).toList.map Char.toLower

variable {host suffix key : String}

/-- A host matches a rule exactly when the rule is empty or the host ends in it
on a label boundary. -/
theorem suffixMatches_iff : suffixMatches host suffix = true ↔
    suffix = "" ∨ OnLabel (suffix.toList.map Char.toLower) (hostChars host) := by
  unfold suffixMatches
  by_cases empty : suffix.isEmpty = true
  · rw [if_pos empty]
    exact iff_of_true rfl (Or.inl (String.isEmpty_iff.mp empty))
  · have filled : suffix ≠ "" := fun same => empty (String.isEmpty_iff.mpr same)
    rw [if_neg empty, OnLabel, hostChars, exists_map_eq_append_dot_iff]
    simp only [Bool.or_eq_true, Bool.and_eq_true, eqIgnoreAsciiCase_iff, toAsciiLowercase_eq_iff,
      String.toList_ofList, decide_eq_true_iff, String.length_toList, filled, false_or]
    rw [eq_comm]

theorem hostChars_append_dot (name : String) :
    hostChars (name ++ ".") = name.toList.map Char.toLower := by
  have ends : ".".toList <:+ (name ++ ".").toList := by
    rw [String.toList_append]
    exact List.suffix_append _ _
  rw [hostChars, stripSuffix, if_pos ends, Option.getD_some, String.toList_ofList,
    String.toList_append, String.length_append, Nat.add_sub_cancel, ← String.length_toList,
    List.take_left]

theorem hostChars_of_undotted {name : String} (undotted : name.toList.getLast? ≠ some '.') :
    hostChars name = name.toList.map Char.toLower := by
  have ends : ¬".".toList <:+ name.toList := by
    rintro ⟨front, split⟩
    apply undotted
    rw [← split, List.getLast?_append]
    rfl
  rw [hostChars, stripSuffix, if_neg ends, Option.getD_none]

theorem onLabel_stripPrefix {start text : String} {front : List Char}
    (mark : start.toList = front ++ ['.']) :
    OnLabel ((stripPrefix start text).getD text).toList text.toList := by
  cases taken : stripPrefix start text with
  | none => exact OnLabel.refl _
  | some rest =>
      refine Or.inr ⟨front, ?_⟩
      rw [toList_of_stripPrefix taken, mark, List.append_assoc]
      rfl

theorem onLabel_marks (text : String) :
    OnLabel (((stripPrefix "+." text).or (stripPrefix "*." text)).getD text).toList
      text.toList := by
  have plus := @onLabel_stripPrefix "+." text ['+'] rfl
  have star := @onLabel_stripPrefix "*." text ['*'] rfl
  cases found : stripPrefix "+." text with
  | none =>
      rw [Option.none_or]
      exact star
  | some rest =>
      rw [found] at plus
      rw [Option.some_or]
      exact plus

theorem normalizeSuffix_spec (key : String) :
    ∃ bare, OnLabel bare ((trim key).toList.map Char.toLower) ∧
      (normalizeSuffix key).toList = (bare.reverse.dropWhile (· = '.')).reverse := by
  have marks := onLabel_marks (toAsciiLowercase (trim key))
  rw [toList_toAsciiLowercase] at marks
  refine ⟨_, (@onLabel_stripPrefix "." _ [] rfl).trans marks, ?_⟩
  rw [normalizeSuffix, trimEndMatches, String.toList_ofList]

/-- No dot is left at the end. -/
theorem getLast?_normalizeSuffix (key : String) :
    (normalizeSuffix key).toList.getLast? ≠ some '.' := by
  rcases normalizeSuffix_spec key with ⟨bare, _, spelled⟩
  rw [spelled, List.getLast?_reverse]
  intro dotted
  have head := List.head?_dropWhile_not (fun char => decide (char = '.')) bare.reverse
  rw [dotted] at head
  cases head

/-- No capital is left. -/
theorem map_toLower_normalizeSuffix (key : String) :
    (normalizeSuffix key).toList.map Char.toLower = (normalizeSuffix key).toList := by
  rcases normalizeSuffix_spec key with ⟨bare, label, spelled⟩
  have folded : ∀ char ∈ (normalizeSuffix key).toList, char.toLower = char := by
    intro char member
    rw [spelled, List.mem_reverse] at member
    have inBare : char ∈ bare :=
      List.mem_reverse.mp ((List.dropWhile_suffix _).subset member)
    have inKey : char ∈ (trim key).toList.map Char.toLower := by
      rcases label with same | ⟨front, split⟩
      · rwa [← same]
      · rw [split]
        exact List.mem_append_right _ (List.mem_cons_of_mem _ inBare)
    rcases List.mem_map.mp inKey with ⟨origin, _, rfl⟩
    exact toLower_toLower origin
  rw [List.map_congr_left folded, List.map_id']

/-- A key without white space and without a dot at its end is, up to case, its
suffix behind marks. -/
theorem onLabel_normalizeSuffix (trimmed : trim key = key)
    (undotted : key.toList.getLast? ≠ some '.') :
    OnLabel (normalizeSuffix key).toList (key.toList.map Char.toLower) := by
  rcases normalizeSuffix_spec key with ⟨bare, label, spelled⟩
  rw [trimmed] at label
  have same : (normalizeSuffix key).toList = bare := by
    rw [spelled]
    cases turned : bare.reverse with
    | nil =>
        rw [List.dropWhile_nil, List.reverse_nil]
        exact (List.reverse_eq_nil_iff.mp turned).symm
    | cons last front =>
        have bare_eq : bare = front.reverse ++ [last] := by
          rw [← List.reverse_reverse bare, turned, List.reverse_cons]
        have filled : bare ≠ [] := by
          rw [bare_eq]
          exact List.append_ne_nil_of_right_ne_nil _ (List.cons_ne_nil _ _)
        have end' : (key.toList.map Char.toLower).getLast? = some last := by
          rw [label.getLast? filled, bare_eq, List.getLast?_concat]
        have other : last ≠ '.' := by
          rintro rfl
          rw [List.getLast?_map, Option.map_eq_some_iff] at end'
          rcases end' with ⟨char, charLast, lowered⟩
          rw [(@toLower_eq_iff char '.' (by decide) (by decide)).mp lowered] at charLast
          exact undotted charLast
        rw [List.dropWhile_cons_of_neg (by rwa [decide_eq_true_iff]), ← turned,
          List.reverse_reverse]
  rwa [same]

end Corduit.Dns

/-!
# Nameserver policy

A `nameserver-policy` entry names the servers that may answer for a domain and
what is under it.  Callers ask first whether an entry covers a host, and hand it
to the system resolver only if none does.  The table is consulted with its keys
as they are written, so what a key covers is seen only through keys in the bare
spelling.
-/

namespace Corduit.Dns

open Text

/-- `EngineDnsSettings`: the policy is in the order in which the table is walked. -/
structure EngineDnsSettings where
  nameservers : List String
  fallback : List String
  policy : List (String × List String)
  fallbackDomain : List String

/-- `Plan`, of which `domains` is the part of the suspect policy that has
suffixes. -/
structure Plan (Upstream : Type) where
  default : List Upstream
  fallback : List Upstream
  policy : List (String × List Upstream)
  domains : List String

/-- A resolver is its plan. -/
structure EngineResolver (Upstream : Type) where
  plan : Plan Upstream

section Plan

variable {Upstream ParseError : Type} (parse : String → Except ParseError Upstream)

/-- `parse_upstreams`: a server that does not parse is left out. -/
def parseUpstreams (servers : List String) : List Upstream :=
  servers.filterMap fun server => (parse server).toOption

/-- The loop of `from_settings` over the policy: an entry without a server that
parses is left out. -/
def parsePolicy (policy : List (String × List String)) : List (String × List Upstream) :=
  policy.filterMap fun (suffix, servers) =>
    let parsed := parseUpstreams parse servers
    if parsed.isEmpty then none else some (suffix, parsed)

/-- The plan of the settings. -/
def EngineResolver.fromSettings (settings : EngineDnsSettings) :
    Option (EngineResolver Upstream) :=
  let default := parseUpstreams parse settings.nameservers
  let policy := parsePolicy parse settings.policy
  if default.isEmpty && policy.isEmpty then none
  else some
    { plan :=
        { default := default
          fallback := parseUpstreams parse settings.fallback
          policy := policy
          domains := settings.fallbackDomain.map normalizeSuffix } }

/-- Whether a policy has the host. -/
def EngineResolver.usesPolicy (resolver : EngineResolver Upstream) (host : String) : Bool :=
  resolver.plan.policy.any fun (suffix, _) => suffixMatches host suffix

/-- Without a resolver there is no policy. -/
def domainUsesPolicy (resolver : Option (EngineResolver Upstream)) (host : String) : Bool :=
  (resolver.map fun resolver => resolver.usesPolicy host).getD false

/-- Whether `connect_host` asks the system resolver for a host, once the engine's
own resolver, if there is one, has answered. -/
def asksSystem {Addresses Failure : Type} (resolver : Option (EngineResolver Upstream))
    (answer : EngineResolver Upstream → Except Failure Addresses) (host : String) : Bool :=
  match resolver.map answer with
  | some (.ok _) => false
  | some (.error _) => !domainUsesPolicy resolver host
  | none => true

end Plan

/-- A key of the settings covers the host, as its spelling is documented. -/
def EngineDnsSettings.Covers (settings : EngineDnsSettings) (host : String) : Prop :=
  ∃ entry ∈ settings.policy, suffixMatches host (normalizeSuffix entry.1) = true

/-- The key is a bare suffix, in any case. -/
def Bare (key : String) : Prop :=
  toAsciiLowercase key = normalizeSuffix key
deriving Decidable

/-- What a key covers is seen through keys as they are written: there is the empty
key, or no key has a root dot and every suffix is that of a bare key or under
it. -/
def EngineDnsSettings.SeenAsWritten (settings : EngineDnsSettings) : Prop :=
  (∃ entry ∈ settings.policy, entry.1 = "") ∨
    ∀ entry ∈ settings.policy, entry.1.toList.getLast? ≠ some '.' ∧
      ∃ bare ∈ settings.policy, Bare bare.1 ∧
        suffixMatches (normalizeSuffix entry.1) bare.1 = true

section Lookup

variable {Upstream ParseError : Type} {parse : String → Except ParseError Upstream}
  {settings : EngineDnsSettings} {resolver : EngineResolver Upstream} {host : String}

/-- Where every entry has a server that parses, the keys of the plan are those of
the settings. -/
theorem usesPolicy_iff
    (usable : ∀ entry ∈ settings.policy, ∃ server ∈ entry.2, ∃ upstream,
      parse server = .ok upstream)
    (built : EngineResolver.fromSettings parse settings = some resolver) :
    resolver.usesPolicy host = true ↔
      ∃ entry ∈ settings.policy, suffixMatches host entry.1 = true := by
  have policy : resolver.plan.policy = parsePolicy parse settings.policy := by
    rw [EngineResolver.fromSettings] at built
    split at built
    · cases built
    · rw [← Option.some.inj built]
  rw [EngineResolver.usesPolicy, policy, List.any_eq_true]
  constructor
  · rintro ⟨⟨suffix, upstreams⟩, member, covers⟩
    rcases List.mem_filterMap.mp member with ⟨⟨suffix', servers⟩, inSettings, kept⟩
    dsimp only at kept
    split at kept
    · cases kept
    · cases kept
      exact ⟨_, inSettings, covers⟩
  · rintro ⟨⟨suffix, servers⟩, inSettings, covers⟩
    rcases usable _ inSettings with ⟨server, listed, upstream, parses⟩
    have parsed : upstream ∈ parseUpstreams parse servers := by
      refine List.mem_filterMap.mpr ⟨server, listed, ?_⟩
      rw [parses]
      rfl
    refine ⟨(suffix, parseUpstreams parse servers), List.mem_filterMap.mpr ⟨_, inSettings, ?_⟩,
      covers⟩
    dsimp only
    rw [if_neg fun empty => List.ne_nil_of_mem parsed (List.isEmpty_iff.mp empty)]

end Lookup

section Keys

variable {host key first second : String}

theorem hostChars_normalizeSuffix (key : String) :
    hostChars (normalizeSuffix key) = (normalizeSuffix key).toList := by
  rw [hostChars_of_undotted (getLast?_normalizeSuffix key), map_toLower_normalizeSuffix]

/-- A suffix that is not empty covers a host exactly when the host ends in it. -/
theorem suffixMatches_normalizeSuffix_iff : suffixMatches host (normalizeSuffix key) = true ↔
    normalizeSuffix key = "" ∨ OnLabel (normalizeSuffix key).toList (hostChars host) := by
  rw [suffixMatches_iff, map_toLower_normalizeSuffix]

/-- Every suffix covers itself. -/
theorem suffixMatches_self (key : String) :
    suffixMatches (normalizeSuffix key) (normalizeSuffix key) = true := by
  rw [suffixMatches_normalizeSuffix_iff, hostChars_normalizeSuffix]
  exact Or.inr (OnLabel.refl _)

theorem suffixMatches_append_dot (key : String) : suffixMatches (key ++ ".") key = true := by
  rw [suffixMatches_iff, hostChars_append_dot]
  exact Or.inr (OnLabel.refl _)

theorem suffixMatches_empty (host : String) : suffixMatches host "" = true :=
  suffixMatches_iff.mpr (Or.inl rfl)

end Keys

section Honoured

variable {settings : EngineDnsSettings}

/-- The keys as they are written cover what they are documented to cover. -/
def EngineDnsSettings.Honoured (settings : EngineDnsSettings) : Prop :=
  ∀ host, (∃ entry ∈ settings.policy, suffixMatches host entry.1 = true) ↔ settings.Covers host

theorem normalizeSuffix_ne_empty (honoured : settings.Honoured)
    (filled : ∀ entry ∈ settings.policy, entry.1 ≠ "") :
    ∀ entry ∈ settings.policy, normalizeSuffix entry.1 ≠ "" := by
  intro entry member empty
  have covers : settings.Covers "" := ⟨entry, member, by rw [empty]; exact suffixMatches_empty _⟩
  rcases (honoured "").mpr covers with ⟨other, listed, matched⟩
  rcases suffixMatches_iff.mp matched with none | label
  · exact filled other listed none
  · have nothing := label.eq_nil
    rw [List.map_eq_nil_iff, String.toList_eq_nil_iff] at nothing
    exact filled other listed nothing

/-- Without the empty key, no key of a table that is honoured has a root dot: with
one dot more it would cover itself. -/
theorem undotted_of_honoured (honoured : settings.Honoured)
    (filled : ∀ entry ∈ settings.policy, entry.1 ≠ "") :
    ∀ entry ∈ settings.policy, entry.1.toList.getLast? ≠ some '.' := by
  intro entry member dotted
  rcases (honoured (entry.1 ++ ".")).mp ⟨entry, member, suffixMatches_append_dot _⟩ with
    ⟨other, listed, matched⟩
  have some := normalizeSuffix_ne_empty honoured filled other listed
  have label := (suffixMatches_normalizeSuffix_iff.mp matched).resolve_left some
  rw [hostChars_append_dot] at label
  have proper : (normalizeSuffix other.1).toList ≠ [] := fun nothing =>
    some (String.toList_eq_nil_iff.mp nothing)
  have last := label.getLast? proper
  rw [List.getLast?_map, dotted] at last
  exact getLast?_normalizeSuffix other.1 last.symm

/-- The suffix of every key is under that of a bare key: what covers it is
shorter, unless it is bare. -/
theorem bare_of_honoured (trimmed : ∀ entry ∈ settings.policy, trim entry.1 = entry.1)
    (honoured : settings.Honoured) (filled : ∀ entry ∈ settings.policy, entry.1 ≠ "")
    {entry : String × List String} (member : entry ∈ settings.policy) :
    ∃ bare ∈ settings.policy, Bare bare.1 ∧
      suffixMatches (normalizeSuffix entry.1) bare.1 = true := by
  induction length : (normalizeSuffix entry.1).toList.length using Nat.strong_induction_on
    generalizing entry with
  | _ bound ih =>
      have covers : settings.Covers (normalizeSuffix entry.1) :=
        ⟨entry, member, suffixMatches_self _⟩
      rcases (honoured _).mpr covers with ⟨other, listed, matched⟩
      by_cases bare : Bare other.1
      · exact ⟨other, listed, bare, matched⟩
      · have label := (suffixMatches_iff.mp matched).resolve_left (filled other listed)
        rw [hostChars_normalizeSuffix] at label
        have inner := onLabel_normalizeSuffix (trimmed other listed)
          (undotted_of_honoured honoured filled other listed)
        have apart : (normalizeSuffix other.1).toList ≠ other.1.toList.map Char.toLower := by
          intro same
          rw [← toList_toAsciiLowercase, String.toList_inj] at same
          exact bare same.symm
        have shorter := Nat.lt_of_lt_of_le (inner.length_lt apart) label.length_le
        rw [length] at shorter
        rcases ih _ shorter listed rfl with ⟨last, listed', bare', matched'⟩
        refine ⟨last, listed', bare', suffixMatches_iff.mpr (Or.inr ?_)⟩
        have label' := (suffixMatches_iff.mp matched').resolve_left (filled last listed')
        rw [hostChars_normalizeSuffix] at label' ⊢
        exact label'.trans (inner.trans label)

/-- A table is honoured exactly when what its keys cover is seen as it is written. -/
theorem honoured_iff (trimmed : ∀ entry ∈ settings.policy, trim entry.1 = entry.1) :
    settings.Honoured ↔ settings.SeenAsWritten := by
  constructor
  · intro honoured
    by_cases all : ∃ entry ∈ settings.policy, entry.1 = ""
    · exact Or.inl all
    · have filled : ∀ entry ∈ settings.policy, entry.1 ≠ "" := fun entry member empty =>
        all ⟨entry, member, empty⟩
      exact Or.inr fun entry member => ⟨undotted_of_honoured honoured filled entry member,
        bare_of_honoured trimmed honoured filled member⟩
  · rintro (⟨entry, member, empty⟩ | seen) host
    · refine iff_of_true ⟨entry, member, ?_⟩ ⟨entry, member, ?_⟩
      · rw [empty]
        exact suffixMatches_empty host
      · have none : normalizeSuffix "" = "" := by decide
        rw [empty, none]
        exact suffixMatches_empty host
    · constructor
      · rintro ⟨entry, member, matched⟩
        refine ⟨entry, member, suffixMatches_normalizeSuffix_iff.mpr ?_⟩
        have inner := onLabel_normalizeSuffix (trimmed entry member) (seen entry member).1
        rcases suffixMatches_iff.mp matched with empty | label
        · rw [empty] at inner
          exact Or.inl (String.toList_eq_nil_iff.mp (by rw [empty]; exact inner.eq_nil))
        · exact Or.inr (inner.trans label)
      · rintro ⟨entry, member, covers⟩
        rcases (seen entry member).2 with ⟨bare, listed, _, matched⟩
        refine ⟨bare, listed, suffixMatches_iff.mpr ?_⟩
        rcases suffixMatches_iff.mp matched with empty | label
        · exact Or.inl empty
        · rw [hostChars_normalizeSuffix] at label
          rcases suffixMatches_normalizeSuffix_iff.mp covers with none | label'
          · rw [none] at label
            have nothing := label.eq_nil
            rw [List.map_eq_nil_iff, String.toList_eq_nil_iff] at nothing
            exact Or.inl nothing
          · exact Or.inr (label.trans label')

end Honoured

/-- `uses_policy` holds for the hosts that the keys of the table cover, in whatever
spelling, exactly when what the keys cover is seen as they are written; and then
no covered host is handed to the system resolver. -/
theorem usesPolicy_covers_iff {Upstream ParseError : Type}
    {parse : String → Except ParseError Upstream} {settings : EngineDnsSettings}
    {resolver : EngineResolver Upstream}
    (usable : ∀ entry ∈ settings.policy, ∃ server ∈ entry.2, ∃ upstream,
      parse server = .ok upstream)
    (trimmed : ∀ entry ∈ settings.policy, trim entry.1 = entry.1)
    (built : EngineResolver.fromSettings parse settings = some resolver) :
    ((∀ host, resolver.usesPolicy host = true ↔ settings.Covers host) ↔
      settings.SeenAsWritten) ∧
    (settings.SeenAsWritten → ∀ host, settings.Covers host →
      ∀ {Addresses Failure : Type} (answer : EngineResolver Upstream → Except Failure Addresses),
        asksSystem (some resolver) answer host = false) := by
  have uses : (∀ host, resolver.usesPolicy host = true ↔ settings.Covers host) ↔
      settings.Honoured :=
    forall_congr' fun host => iff_congr (usesPolicy_iff usable built) Iff.rfl
  refine ⟨uses.trans (honoured_iff trimmed), fun seen host covers _ _ answer => ?_⟩
  have used := (uses.mpr ((honoured_iff trimmed).mpr seen) host).mpr covers
  have governed : domainUsesPolicy (some resolver) host = true := used
  rw [asksSystem, Option.map_some]
  cases answer resolver with
  | ok => rfl
  | error =>
      dsimp only
      rw [governed]
      rfl

namespace Example

/-- A parser that knows one server. -/
def parse (server : String) : Except Unit String :=
  if server = "10.0.0.53" then .ok server else .error ()

/-- A private suffix in the spelling of a subscription. -/
def settings : EngineDnsSettings where
  nameservers := ["10.0.0.53"]
  fallback := []
  policy := [("+.internal.example", ["10.0.0.53"])]
  fallbackDomain := []

/-- The same suffix, written bare. -/
def bareSettings : EngineDnsSettings :=
  { settings with policy := [("Internal.example", ["10.0.0.53"])] }

end Example

/-- A node under the suffix is covered, and handed to the system resolver when the
private server does not answer. -/
theorem covered_host_asks_system :
    ∃ resolver, EngineResolver.fromSettings Example.parse Example.settings = some resolver ∧
      Example.settings.Covers "node.internal.example" ∧
      resolver.usesPolicy "node.internal.example" = false ∧
      asksSystem (some resolver) (fun _ => (.error () : Except Unit Unit))
        "node.internal.example" = true :=
  ⟨_, rfl, ⟨_, List.mem_singleton.mpr rfl, by decide⟩, by decide, by decide⟩

theorem usesPolicy_covers_iff_bare :
    ∃ resolver, EngineResolver.fromSettings Example.parse Example.bareSettings = some resolver ∧
      ∀ host, resolver.usesPolicy host = true ↔ Example.bareSettings.Covers host := by
  have usable : ∀ entry ∈ Example.bareSettings.policy, ∃ server ∈ entry.2, ∃ upstream,
      Example.parse server = .ok upstream := by
    intro entry member
    rw [List.mem_singleton.mp member]
    exact ⟨_, List.mem_singleton.mpr rfl, _, rfl⟩
  exact ⟨_, rfl, (@usesPolicy_covers_iff String Unit Example.parse Example.bareSettings _ usable
    (by decide) rfl).1.mpr (Or.inr (by decide))⟩

end Corduit.Dns
