import Corduit.Collection.RoseTree
import Corduit.Dns.Bogon
import Corduit.Engine.RuleProvider

/-!
# Routing decisions

A compiled rule is a tree: the combinators hold their operands as children.
The router walks the rules in order and takes the first one that matches.  A
destination that came as a name is resolved once, when the first rule that
wants its address is reached, and the addresses stay at hand from there on.

The resolver and the country database are outside the router; `Environment`
is what a decision asks of them.
-/

namespace Corduit.Engine

open Collection Dns Netstack Text

/-- The transport. -/
inductive Network where
  | tcp
  | udp
  deriving DecidableEq, Repr

/-- Which inbound a connection arrived on. -/
structure InboundContext where
  name : Option String := none
  inboundType : Option String := none
  user : Option String := none
  port : Option (BitVec 16) := none
  deriving DecidableEq, Repr

/-- Everything a rule may inspect about one connection attempt. -/
structure RouteRequest where
  domain : Option String := none
  dstIp : Option IpAddr := none
  dstPort : Option (BitVec 16) := none
  srcIp : Option IpAddr := none
  srcPort : Option (BitVec 16) := none
  network : Network := .tcp
  processName : Option String := none
  processPath : Option String := none
  inbound : InboundContext := {}
  deriving DecidableEq, Repr

/-- What a routing decision asks of the rest of the engine. -/
structure Environment where
  /-- `CountryMatcher::matches_country`. -/
  matchesCountry : String → IpAddr → Bool
  /-- `str::parse` at the type of addresses. -/
  parseAddress : String → Option IpAddr
  /-- The answer of the cache, or else of the resolver; no addresses if it
  fails. -/
  resolveHostAll : String → List IpAddr
  /-- The CIDRs of the resolver. -/
  cidr : CidrLibrary

/-- The kinds of rules. -/
inductive RuleType where
  | domain
  | domainSuffix
  | domainKeyword
  | domainRegex
  | geoip
  | ipCidr
  | srcIpCidr
  | srcPort
  | dstPort
  | inPort
  | inType
  | inUser
  | inName
  | processName
  | processPath
  | network
  | ruleSet
  | geosite
  | and
  | or
  | not
  | match
  deriving DecidableEq, Repr

/-- The combinators, whose operands are their children. -/
def RuleType.isCombinator : RuleType → Bool
  | .and | .or | .not => true
  | _ => false

theorem RuleType.isCombinator_iff {kind : RuleType} :
    kind.isCombinator = true ↔ kind = .and ∨ kind = .or ∨ kind = .not := by
  cases kind <;> simp [isCombinator]

/-- The rules that name a provider. -/
def RuleType.namesProvider : RuleType → Bool
  | .ruleSet | .geosite => true
  | _ => false

/-- A compiled rule without its children. -/
structure RuleHead where
  ruleType : RuleType
  pattern : String
  outbound : String
  regex : Option (String → Bool)
  ipnet : Option IpNet
  portRanges : List (BitVec 16 × BitVec 16)
  network : Option Network
  noResolve : Bool
  hits : BitVec 64

/-- A rule with every optional field empty. -/
def RuleHead.blank : RuleHead where
  ruleType := .match
  pattern := ""
  outbound := ""
  regex := none
  ipnet := none
  portRanges := []
  network := none
  noResolve := false
  hits := 0

/-- A rule with the rules below it. -/
abbrev CompiledRule := RoseTree RuleHead

/-- The inputs a compiled rule is evaluated against. -/
structure MatchContext extends RouteRequest where
  resolved : List IpAddr

namespace MatchContext

variable (context : MatchContext)

/-- The subset of the context that a rule set matches against. -/
def ruleInput (noResolve : Bool) : RuleMatchInput where
  domain := context.domain
  dstIp := context.dstIp
  resolved := context.resolved
  noResolve := noResolve
  srcIp := context.srcIp
  processName := context.processName

/-- The addresses that an address rule may compare against. -/
def dstCandidates (noResolve : Bool) : List IpAddr :=
  context.dstIp.toList ++ if noResolve then [] else context.resolved

end MatchContext

/-- Whether one of the ranges has the port. -/
def matchesPort (ranges : List (BitVec 16 × BitVec 16)) (port : BitVec 16) : Bool :=
  ranges.any fun range => decide (range.1 ≤ port) && decide (port ≤ range.2)

/-- A domain ends in the pattern on a label boundary.  The character in front
of the pattern is the separator, so the byte positions of the source are
character positions. -/
def matchesDomainSuffix (domain pattern : String) : Bool :=
  let domain := trimEndMatches (· = '.') domain
  if eqIgnoreAsciiCase domain pattern then
    true
  else if domain.length ≤ pattern.length then
    false
  else
    let start := domain.length - pattern.length
    domain.toList[start - 1]? = some '.' &&
      eqIgnoreAsciiCase (String.ofList (domain.toList.drop start)) pattern

/-- The part of a path after its last separator. -/
def basenameOf (path : String) : String :=
  afterLast isPathSeparator path

/-- The base name, up to case and extension. -/
def matchesProcessName (pattern processName : String) : Bool :=
  let basename := basenameOf processName
  eqIgnoreAsciiCase processName pattern || eqIgnoreAsciiCase basename pattern ||
    ((stripSuffixIgnoreCase ".exe" pattern).any fun withoutExt =>
      eqIgnoreAsciiCase processName withoutExt || eqIgnoreAsciiCase basename withoutExt) ||
    (stripSuffixIgnoreCase ".exe" processName).any fun withoutExt =>
      eqIgnoreAsciiCase withoutExt pattern

/-- The whole path, up to case. -/
def matchesProcessPath (pattern processPath : String) : Bool :=
  let path := trim processPath
  !path.isEmpty && !pattern.isEmpty && eqIgnoreAsciiCase path pattern

namespace RuleHead

/-- What the compiled form alone says about the need for the destination
address, given the answers of the children. -/
def wantsDstIpWithoutProvider (head : RuleHead) (below : List Bool) : Bool :=
  if head.noResolve then
    false
  else
    match head.ruleType with
    | .ipCidr | .geoip => true
    | .ruleSet | .geosite => false
    | .and | .or | .not => below.any id
    | _ => false

/-- The need for the destination address; that of a rule set depends on what
its provider holds. -/
def wantsDstIp (providers : RuleProviderManager) (head : RuleHead) (below : List Bool) : Bool :=
  if head.noResolve then
    false
  else
    match head.ruleType with
    | .ruleSet | .geosite => providers.carriesDstIpEntries head.pattern
    | .and | .or | .not => below.any id
    | _ => head.wantsDstIpWithoutProvider below

/-- The branches of `matches_rule_with`, given the answers of the children. -/
def matchesRuleWith (env : Environment) (providers : RuleProviderManager)
    (context : MatchContext) (head : RuleHead) (below : List Bool) : Bool :=
  match head.ruleType with
  | .domain =>
      context.domain.any fun domain =>
        eqIgnoreAsciiCase (trimEndMatches (· = '.') domain) head.pattern
  | .domainSuffix => context.domain.any fun domain => matchesDomainSuffix domain head.pattern
  | .domainKeyword => context.domain.any fun domain => containsIgnoreCase head.pattern domain
  | .domainRegex =>
      context.domain.any fun domain => head.regex.any fun isMatch => isMatch domain
  | .ipCidr =>
      head.ipnet.any fun network =>
        (context.dstCandidates head.noResolve).any fun address => network.contains address
  | .geoip =>
      (context.dstCandidates head.noResolve).any fun address =>
        env.matchesCountry head.pattern address
  | .srcIpCidr =>
      head.ipnet.any fun network => context.srcIp.any fun address => network.contains address
  | .dstPort => context.dstPort.any (matchesPort head.portRanges)
  | .srcPort => context.srcPort.any (matchesPort head.portRanges)
  | .inPort => context.inbound.port.any (matchesPort head.portRanges)
  | .inType => context.inbound.inboundType.any fun value => eqIgnoreAsciiCase value head.pattern
  | .inUser => context.inbound.user.any fun value => eqIgnoreAsciiCase value head.pattern
  | .inName => context.inbound.name.any fun value => eqIgnoreAsciiCase value head.pattern
  | .processName => context.processName.any (matchesProcessName head.pattern)
  | .processPath => context.processPath.any (matchesProcessPath head.pattern)
  | .network => head.network = some context.network
  | .ruleSet | .geosite => providers.matches head.pattern (context.ruleInput head.noResolve)
  | .and => below.all id
  | .or => below.any id
  | .not => !below.any id
  | .match => true

end RuleHead

/-- A rule, or a nested one, can only be decided once the destination address
is known. -/
def wantsDstIp (providers : RuleProviderManager) : CompiledRule → Bool :=
  RoseTree.fold (RuleHead.wantsDstIp providers)

/-- Whether a rule matches. -/
def matchesRuleWith (env : Environment) (providers : RuleProviderManager)
    (context : MatchContext) : CompiledRule → Bool :=
  RoseTree.fold (RuleHead.matchesRuleWith env providers context)

/-- The addresses of a destination: those it came with, or else those its name
resolves to. -/
def resolveDestinationIps (env : Environment) (domain : Option String) (ip : Option IpAddr) :
    List IpAddr :=
  match ip, domain with
  | some ip, _ => [ip]
  | none, none => []
  | none, some domain =>
      let normalized := toAsciiLowercase <| trimEndMatches (· = ']') <|
        trimStartMatches (· = '[') <| trimEndMatches (· = '.') <| trim domain
      if normalized.isEmpty then
        []
      else
        match env.parseAddress normalized with
        | some ip => [ip]
        | none => env.resolveHostAll normalized

/-- Domains under `cn` and its like. -/
def isMainlandChinaDomain (domain : Option String) : Bool :=
  domain.any fun domain =>
    let normalized := trimEndMatches (· = '.') (trim domain)
    eqIgnoreAsciiCase normalized "cn" || (stripSuffixIgnoreCase ".cn" normalized).isSome

/-- Private addresses, and those of the country. -/
def isMainlandChinaIp (env : Environment) (addresses : List IpAddr) : Bool :=
  addresses.any fun address => isBogon env.cidr address || env.matchesCountry "CN" address

/-- The mode of the program. -/
inductive Mode where
  | rule
  | global
  | direct
  deriving DecidableEq, Repr

namespace ProxyMode

/-- `GLOBAL`. -/
def global : Int := 1

/-- `DIRECT`. -/
def direct : Int := 2

/-- `RULE`. -/
def rule : Int := 3

end ProxyMode

/-- A mode set at run time comes before the configured one. -/
def effectiveMode (runtimeMode : Int) (configured : Mode) : Mode :=
  if runtimeMode = ProxyMode.global then .global
  else if runtimeMode = ProxyMode.direct then .direct
  else if runtimeMode = ProxyMode.rule then .rule
  else configured

/-- Fallback outbound tags, resolved once for a configuration. -/
structure DefaultOutbounds where
  direct : String
  global : Option String
  default : String
  deriving DecidableEq, Repr

/-- The rules and what they refer to. -/
structure Router where
  rules : List CompiledRule
  defaults : DefaultOutbounds
  providers : RuleProviderManager

/-- What one routing decision decided. -/
structure RouteDecision where
  outbound : String
  ruleIndex : Option Nat
  ruleType : Option RuleType
  deriving DecidableEq, Repr

/-- The loop over the rules, from the one at `index` on.  Its state is whether
resolution was attempted, and the addresses it gave. -/
def scan (env : Environment) (providers : RuleProviderManager) (request : RouteRequest) :
    Bool → List IpAddr → Nat → List CompiledRule → Option (CompiledRule × Nat)
  | _, _, _, [] => none
  | attempted, resolved, index, rule :: rules =>
      let resolves := !attempted && request.dstIp.isNone && wantsDstIp providers rule
      let resolved := if resolves then resolveDestinationIps env request.domain none else resolved
      if matchesRuleWith env providers ⟨request, resolved⟩ rule then
        some (rule, index)
      else
        scan env providers request (attempted || resolves) resolved (index + 1) rules

namespace Router

variable (router : Router)

/-- Count a connection that the rule at `index` decided. -/
def countHit (index : Nat) : Router :=
  { router with
    rules := router.rules.modify index fun rule =>
      .node { rule.label with hits := rule.label.hits + 1 } rule.children }

/-- Decide which outbound serves one connection attempt. -/
def decide (env : Environment) (runtimeMode : Int) (configured : Mode)
    (request : RouteRequest) : RouteDecision × Router :=
  match effectiveMode runtimeMode configured with
  | .global => (⟨router.defaults.global.getD router.defaults.direct, none, none⟩, router)
  | .direct => (⟨router.defaults.direct, none, none⟩, router)
  | .rule =>
      let resolved :=
        match request.dstIp with
        | some address => [address]
        | none =>
            if router.rules.isEmpty then resolveDestinationIps env request.domain none else []
      let attempted := request.dstIp.isSome || router.rules.isEmpty
      -- Without rules, destinations in mainland China go out directly.
      if router.rules.isEmpty && isMainlandChinaDomain request.domain then
        (⟨router.defaults.direct, none, none⟩, router)
      else if router.rules.isEmpty && isMainlandChinaIp env resolved then
        (⟨router.defaults.direct, none, none⟩, router)
      else
        match scan env router.providers request attempted resolved 0 router.rules with
        | some (rule, index) =>
            (⟨rule.label.outbound, some index, some rule.label.ruleType⟩, router.countHit index)
        | none => (⟨router.defaults.default, none, none⟩, router)

end Router

end Corduit.Engine
