import Corduit.Engine.Routing.Core

/-!
# Compiling and loading a configuration

Nested rules arrive as untyped values and are decoded one level at a time, so
the compiler takes the decoder as given; the same holds of the parsers of
regular expressions and networks.  What a provider loads is the business of
`load`, and the order in which a hash map is walked is any order at all.
-/

namespace Corduit.Engine

open Collection Netstack Text

/-- A routing rule as configured; children are values that decode to rules. -/
structure RuleConfig (Value : Type) where
  ruleType : RuleType
  payload : String
  outbound : String
  noResolve : Bool
  rules : List Value

/-- The kinds of outbound. -/
inductive OutboundType where
  | direct
  | reject
  | shadowsocks
  | shadowsocksR
  | snell
  | vmess
  | vless
  | trojan
  | wireguard
  | tuic
  | hysteria
  | hysteria2
  | shadowTls
  | naive
  | socks5
  | socks4
  | http
  | selector
  | urltest
  | fallback
  | loadbalance
  | relay
  deriving DecidableEq, Repr

/-- An outbound: kind and tag. -/
structure OutboundConfig where
  outboundType : OutboundType
  tag : String
  deriving DecidableEq, Repr

/-- What the router reads of the configuration. -/
structure Config (Value : Type) where
  outbounds : List OutboundConfig
  rules : List (RuleConfig Value)

/-- The decoders that compilation uses. -/
structure Decoders (Value : Type) where
  /-- `nextjson::from_value`. -/
  fromValue : Value → Except String (RuleConfig Value)
  /-- `RegexBuilder::build`, ignoring case. -/
  buildRegex : String → Except String (String → Bool)
  /-- `str::parse` at the type of networks. -/
  parseNet : String → Except String IpNet

/-- `Debug` of a rule type. -/
def RuleType.toText : RuleType → String
  | .domain => "Domain"
  | .domainSuffix => "DomainSuffix"
  | .domainKeyword => "DomainKeyword"
  | .domainRegex => "DomainRegex"
  | .geoip => "Geoip"
  | .ipCidr => "IpCidr"
  | .srcIpCidr => "SrcIpCidr"
  | .srcPort => "SrcPort"
  | .dstPort => "DstPort"
  | .inPort => "InPort"
  | .inType => "InType"
  | .inUser => "InUser"
  | .inName => "InName"
  | .processName => "ProcessName"
  | .processPath => "ProcessPath"
  | .network => "Network"
  | .ruleSet => "RuleSet"
  | .geosite => "Geosite"
  | .and => "And"
  | .or => "Or"
  | .not => "Not"
  | .match => "Match"

/-- Nesting limit for the combinators. -/
def maxRuleDepth : Nat := 8

/-- A port. -/
def parsePort (text : String) (shown : String) : Except Error (BitVec 16) :=
  match parseUnsigned (2 ^ 16) text with
  | some port => .ok (BitVec.ofNat 16 port)
  | none => .error (.config s!"Invalid port '{shown}'")

/-- One part of a port list: a port or a range of ports. -/
def compilePortRange (part : String) : Except Error (BitVec 16 × BitVec 16) :=
  let part := trim part
  if part.isEmpty then
    .error (.config "Empty port in port rule")
  else
    match splitOnce '-' part with
    | some (start, finish) => do
        let first ← parsePort (trim start) start
        let last ← parsePort (trim finish) finish
        if first > last then
          .error (.config s!"Invalid port range '{part}'")
        else
          .ok (first, last)
    | none => do
        let port ← parsePort part part
        return (port, port)

/-- Ports and ranges between commas. -/
def compilePortRanges (pattern : String) : Except Error (List (BitVec 16 × BitVec 16)) :=
  (split ',' pattern).mapM compilePortRange

/-- The network of a name. -/
def Network.parse (value : String) : Except Error Network :=
  let other := toAsciiLowercase (trim value)
  if other = "tcp" then .ok .tcp
  else if other = "udp" then .ok .udp
  else .error (.config s!"Invalid network '{other}': expected 'tcp' or 'udp'")

section Compile

variable {Value : Type} (decoders : Decoders Value)

/-- A combinator needs something to combine, and `not` exactly one operand. -/
def checkOperands (rule : RuleConfig Value) (children : List CompiledRule) : Except Error Unit :=
  match rule.ruleType with
  | .and | .or =>
      if children.isEmpty then
        .error (.config
          s!"{rule.ruleType.toText} rule for '{rule.outbound}' has no child rules")
      else
        .ok ()
  | .not =>
      if children.length ≠ 1 then
        .error (.config (s!"not rule for '{rule.outbound}' takes exactly one child rule, " ++
          s!"got {children.length}"))
      else
        .ok ()
  | _ => .ok ()

/-- The combinators carry their condition in their children, and `match` has
none; an empty payload is wrong anywhere else. -/
def checkPayload (rule : RuleConfig Value) : Except Error Unit :=
  if !(rule.ruleType.isCombinator || rule.ruleType = .match) && isBlank rule.payload then
    .error (.config s!"{rule.ruleType.toText} rule for '{rule.outbound}' has an empty payload")
  else
    .ok ()

/-- The regular expression of a rule. -/
def compileRegex (rule : RuleConfig Value) : Except Error (Option (String → Bool)) :=
  if rule.ruleType = .domainRegex then
    match decoders.buildRegex rule.payload with
    | .ok regex => .ok (some regex)
    | .error error => .error (.config s!"Invalid regex pattern: {error}")
  else
    .ok none

/-- The network of a rule. -/
def compileNet (rule : RuleConfig Value) : Except Error (Option IpNet) :=
  if rule.ruleType = .ipCidr || rule.ruleType = .srcIpCidr then
    match decoders.parseNet (trim rule.payload) with
    | .ok network => .ok (some network)
    | .error error => .error (.config s!"Invalid CIDR '{rule.payload}': {error}")
  else
    .ok none

/-- The ports of a rule. -/
def compilePorts (rule : RuleConfig Value) : Except Error (List (BitVec 16 × BitVec 16)) :=
  if rule.ruleType = .srcPort || rule.ruleType = .dstPort || rule.ruleType = .inPort then
    compilePortRanges rule.payload
  else
    .ok []

/-- Whether a rule is for TCP or UDP. -/
def compileNetwork (rule : RuleConfig Value) : Except Error (Option Network) :=
  if rule.ruleType = .network then
    (Network.parse rule.payload).map some
  else
    .ok none

/-- Names are compared without case, so their patterns are folded once. -/
def compilePattern (rule : RuleConfig Value) : String :=
  match rule.ruleType with
  | .domain | .domainSuffix | .domainKeyword | .processName | .processPath | .inType | .inUser
  | .inName => toAsciiLowercase (trim rule.payload)
  | _ => rule.payload

/-- Everything of a rule but its children. -/
def compileHead (rule : RuleConfig Value) : Except Error RuleHead := do
  checkPayload rule
  let regex ← compileRegex decoders rule
  let ipnet ← compileNet decoders rule
  let portRanges ← compilePorts rule
  let network ← compileNetwork rule
  return {
    ruleType := rule.ruleType
    pattern := compilePattern rule
    outbound := rule.outbound
    regex := regex
    ipnet := ipnet
    portRanges := portRanges
    network := network
    noResolve := rule.noResolve
    hits := 0 }

/-- The children of a combinator, given what compiling them gives; no other
rule has children. -/
def compileChildren (nested : Except Error (List CompiledRule)) (rule : RuleConfig Value) :
    Except Error (List CompiledRule) :=
  if rule.ruleType.isCombinator then do
    let children ← nested
    checkOperands rule children
    return children
  else
    .ok []

/-- A rule, given what compiling its children gives. -/
def compileRuleWith (nested : Except Error (List CompiledRule)) (rule : RuleConfig Value) :
    Except Error CompiledRule := do
  let children ← compileChildren nested rule
  let head ← compileHead decoders rule
  return .node head children

/-- Decode and compile one nested rule. -/
def compileNestedRule (compile : RuleConfig Value → Except Error CompiledRule) (value : Value) :
    Except Error CompiledRule :=
  match decoders.fromValue value with
  | .ok rule => compile rule
  | .error error => .error (.config s!"Invalid nested routing rule: {error}")

/-- Compile a rule that may hold so many more levels of nested rules. -/
def compileRule : Nat → RuleConfig Value → Except Error CompiledRule
  | 0, rule =>
      compileRuleWith decoders
        (.error (.config s!"Routing rules nest deeper than {maxRuleDepth} levels")) rule
  | levels + 1, rule =>
      compileRuleWith decoders
        (rule.rules.mapM (compileNestedRule decoders (compileRule levels))) rule

/-- The rules of a table. -/
def compileRules (rules : List (RuleConfig Value)) : Except Error (List CompiledRule) :=
  rules.mapM (compileRule decoders maxRuleDepth)

end Compile

/-- The fallback outbound tags for a configuration. -/
def resolveDefaultOutbounds {Value : Type} (config : Config Value) : DefaultOutbounds :=
  let tagWhere (test : OutboundType → Bool) : Option String :=
    (config.outbounds.find? fun outbound => test outbound.outboundType).map OutboundConfig.tag
  let direct := (tagWhere (· = .direct)).getD "DIRECT"
  let isGroup : OutboundType → Bool
    | .selector | .urltest | .fallback | .loadbalance => true
    | _ => false
  let isProxy : OutboundType → Bool
    | .direct | .reject => false
    | _ => true
  { direct := direct
    global := (tagWhere isGroup).or (tagWhere isProxy)
    default := (config.outbounds.head?.map OutboundConfig.tag).getD direct }

/-- The rules of the list, not those nested in them, name configured
providers. -/
def checkReferences (names : List String) (rules : List CompiledRule) : Except Error Unit :=
  let references := (rules.filter fun rule => rule.label.ruleType.namesProvider).map
    fun rule => rule.label.pattern
  match references.find? fun name => !names.contains name with
  | some name => .error (.config s!"Rule references missing provider '{name}'")
  | none => .ok ()

/-- Load the providers one after the other. -/
def addProviders (load : RuleProviderConfig → Except Error RuleIndex) :
    RuleProviderManager → List RuleProviderConfig → Except Error RuleProviderManager
  | manager, [] => .ok manager
  | manager, provider :: providers =>
      match manager.addProvider load provider with
      | .ok manager => addProviders load manager providers
      | .error error =>
          .error (.config s!"Failed to load rule provider '{provider.name}': {error.toText}")

/-- A router for a configuration. -/
def Router.new {Value : Type} (decoders : Decoders Value)
    (load : RuleProviderConfig → Except Error RuleIndex) (config : Config Value)
    (configured : List RuleProviderConfig) : Except Error Router := do
  let rules ← compileRules decoders config.rules
  checkReferences (configured.map RuleProviderConfig.name) rules
  let providers ← addProviders load ∅ configured
  return ⟨rules, resolveDefaultOutbounds config, providers⟩

/-- The order in which the entries of a hash map come. -/
structure HashOrder where
  iterate : List RuleProviderConfig → List RuleProviderConfig
  perm : ∀ entries, (iterate entries).Perm entries

/-- Collect the desired providers by name; a name that comes twice is an
error. -/
def desiredMap : List RuleProviderConfig → List RuleProviderConfig →
    Except Error (List RuleProviderConfig)
  | collected, [] => .ok collected
  | collected, config :: configs =>
      if collected.any fun other => other.name = config.name then
        .error (.config s!"Duplicate rule provider name '{config.name}'")
      else
        desiredMap (collected ++ [config]) configs

/-- Remove the providers that are no longer configured. -/
def removeStale (desired : List RuleProviderConfig) (manager : RuleProviderManager) :
    RuleProviderManager :=
  Table.eraseAll manager
    (Table.keysWhere manager fun name _ => !desired.any fun config => config.name = name)

/-- Add a provider if it is new, or replace it if it changed.  A provider that
is to be replaced is gone when the new one cannot be loaded. -/
def syncProvider (load : RuleProviderConfig → Except Error RuleIndex)
    (manager : RuleProviderManager) (config : RuleProviderConfig) :
    Except Error Unit × RuleProviderManager :=
  match manager.lookup config.name with
  | some existing =>
      if !ruleProviderConfigChanged existing.config config then
        (.ok (), manager)
      else
        let removed : RuleProviderManager := manager.erase config.name
        match removed.addProvider load config with
        | .ok added => (.ok (), added)
        | .error error => (.error error, removed)
  | none =>
      match manager.addProvider load config with
      | .ok added => (.ok (), added)
      | .error error => (.error error, manager)

/-- Synchronize one provider after the other, up to the first failure. -/
def syncProviders (load : RuleProviderConfig → Except Error RuleIndex) :
    RuleProviderManager → List RuleProviderConfig → Except Error Unit × RuleProviderManager
  | manager, [] => (.ok (), manager)
  | manager, config :: configs =>
      match syncProvider load manager config with
      | (.ok (), manager) => syncProviders load manager configs
      | (.error error, manager) => (.error error, manager)

/-- Synchronize the loaded rule providers with the configured ones. -/
def refreshRuleProviders (load : RuleProviderConfig → Except Error RuleIndex)
    (order : HashOrder) (manager : RuleProviderManager) (configured : List RuleProviderConfig) :
    Except Error Unit × RuleProviderManager :=
  match desiredMap [] configured with
  | .error error => (.error error, manager)
  | .ok desired => syncProviders load (removeStale desired manager) (order.iterate desired)

namespace Router

variable (router : Router)

/-- `Router::reload`, for the configuration that now stands. -/
def reload {Value : Type} (decoders : Decoders Value)
    (load : RuleProviderConfig → Except Error RuleIndex) (order : HashOrder)
    (config : Config Value) (configured : List RuleProviderConfig) :
    Except Error Unit × Router :=
  match compileRules decoders config.rules with
  | .error error => (.error error, router)
  | .ok rules =>
      let refreshed := refreshRuleProviders load order router.providers configured
      (refreshed.1, ⟨rules, resolveDefaultOutbounds config, refreshed.2⟩)

end Router

end Corduit.Engine
