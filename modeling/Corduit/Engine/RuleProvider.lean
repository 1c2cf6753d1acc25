import Corduit.Collection.Table
import Corduit.Netstack.Packet.Core
import Corduit.Text.Core

/-!
# Rule providers

A rule provider is a named rule set.  Fetching and parsing it is the business
of `load`, which may fail; what is kept is an index that connections are
matched against.  A compiled regular expression is the set of texts it matches.
-/

namespace Corduit.Engine

open Collection Netstack Text

/-- The errors that the modelled functions return. -/
inductive Error where
  | config (message : String)
  | network (message : String)
  | protocol (message : String)
  deriving DecidableEq, Repr

/-- `Display` of an error. -/
def Error.toText : Error → String
  | config message => s!"Configuration error: {message}"
  | network message => s!"Network error: {message}"
  | protocol message => s!"Protocol error: {message}"

/-- Where the rules come from. -/
inductive RuleProviderType where
  | http
  | file
  deriving DecidableEq, Repr

/-- What the rules are. -/
inductive RuleProviderBehavior where
  | domain
  | ipCidr
  | classical
  deriving DecidableEq, Repr

/-- The configuration of a rule set. -/
structure RuleProviderConfig where
  name : String
  providerType : RuleProviderType
  behavior : RuleProviderBehavior
  url : Option String
  path : Option String
  interval : Nat
  deriving DecidableEq, Repr

/-- Two configurations differ in a field that affects the loaded rule set. -/
def ruleProviderConfigChanged (first second : RuleProviderConfig) : Bool :=
  first.providerType ≠ second.providerType || first.behavior ≠ second.behavior ||
    first.url ≠ second.url || first.path ≠ second.path || first.interval ≠ second.interval

/-- A rule set arranged for lookup. -/
structure RuleIndex where
  exact : List String := []
  suffixes : List String := []
  keywords : List String := []
  regexes : List (String → Bool) := []
  dstNets : List IpNet := []
  srcNets : List IpNet := []
  processNames : List String := []
  /-- Why an entry could not be indexed, for diagnostics. -/
  rejected : List String := []

/-- What a rule set is matched against. -/
structure RuleMatchInput where
  domain : Option String
  dstIp : Option IpAddr
  resolved : List IpAddr
  noResolve : Bool
  srcIp : Option IpAddr
  processName : Option String

/-- What is left of a domain behind each of its dots. -/
def parentDomains : List Char → List (List Char)
  | [] => []
  | char :: chars =>
      if char = '.' then chars :: parentDomains chars else parentDomains chars

/-- A suffix of the set ends the domain on a label boundary. -/
def suffixMatches (suffixes : List String) (domain : String) : Bool :=
  !suffixes.isEmpty &&
    (domain.toList :: parentDomains domain.toList).any fun rest =>
      suffixes.contains (String.ofList rest)

/-- `/` or `\\`. -/
def isPathSeparator (char : Char) : Bool :=
  char = '/' || char = '\\'

namespace RuleIndex

variable (index : RuleIndex)

/-- Whether there are networks of destinations. -/
def hasDstIpEntries : Bool :=
  !index.dstNets.isEmpty

/-- Whether a domain is in the index. -/
def matchesDomain (domain : String) : Bool :=
  let domain := toAsciiLowercase (trimEndMatches (· = '.') domain)
  index.exact.contains domain || suffixMatches index.suffixes domain ||
    (index.keywords.any fun keyword => Text.contains keyword domain) ||
    index.regexes.any fun isMatch => isMatch domain

/-- Whether an address is in the index. -/
def matchesDst (address : IpAddr) : Bool :=
  index.dstNets.any fun network => network.contains address

/-- Whether a process is in the index. -/
def matchesProcess (process : String) : Bool :=
  let basename := toAsciiLowercase (afterLast isPathSeparator process)
  let stem := (stripSuffix ".exe" basename).getD basename
  index.processNames.any fun pattern =>
    let patternStem := (stripSuffix ".exe" pattern).getD pattern
    pattern = basename || patternStem = stem

/-- Whether anything of the input is in the index. -/
def «matches» (input : RuleMatchInput) : Bool :=
  input.domain.any index.matchesDomain ||
    input.dstIp.any index.matchesDst ||
    (!input.noResolve && input.resolved.any index.matchesDst) ||
    (input.srcIp.any fun address => index.srcNets.any fun network => network.contains address) ||
    input.processName.any index.matchesProcess

end RuleIndex

/-- A provider with the rule set it last loaded. -/
structure RuleProvider where
  config : RuleProviderConfig
  index : RuleIndex

/-- The providers by name. -/
abbrev RuleProviderManager := Table String RuleProvider

namespace RuleProviderManager

variable (manager : RuleProviderManager)

/-- A provider that is unknown matches nothing. -/
def «matches» (name : String) (input : RuleMatchInput) : Bool :=
  (manager.lookup name).any fun provider => provider.index.matches input

/-- Whether the rule set has networks of destinations. -/
def carriesDstIpEntries (name : String) : Bool :=
  (manager.lookup name).any fun provider => provider.index.hasDstIpEntries

/-- Load a provider and file it under its name; a provider that cannot be
loaded is not filed. -/
def addProvider (load : RuleProviderConfig → Except Error RuleIndex)
    (config : RuleProviderConfig) : Except Error RuleProviderManager := do
  let index ← load config
  return manager.insert config.name ⟨config, index⟩

end RuleProviderManager

end Corduit.Engine
