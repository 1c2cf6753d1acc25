import Corduit.Collection.Table
import Corduit.Netstack.Packet.Core
import Corduit.Text.Core

/-!
# The fake-IP pool

Domains are given addresses from a reserved range.  A forward table maps each
domain to its entry and a reverse table maps each address to its domain; slots
are handed out round-robin by a counter, and an entry may be replaced once its
time to live is over.

Every call reads the clock itself, and a sweep reads it once for each entry it
looks at, so an operation carries all the readings it makes.  The lower-casing
of domain names and the parser of network addresses are parameters.
-/

namespace Corduit.Netstack.FakeIp

open Collection Text Transition Word

/-- The settings of a pool. -/
structure FakeIpConfig where
  rangeStart : Ipv4Addr := 0xC6120000
  poolSize : BitVec 32 := 65536
  ttl : Nat := 600
  deriving DecidableEq, Repr

/-- Build a pool from a CIDR. -/
def FakeIpConfig.fromCidr (parseNet : String → Except String IpNet) (cidr : String) :
    Except String FakeIpConfig :=
  match parseNet (trim cidr) with
  | .error error => .error s!"invalid fake-ip-range '{cidr}': {error}"
  | .ok (.v6 _) =>
      .error (s!"fake-ip-range '{cidr}' is IPv6; the client pool hands out IPv4 " ++
        "addresses and holds no IPv6 range")
  | .ok (.v4 network) =>
      let prefixLen := network.prefixLen
      if ¬ (16 ≤ prefixLen ∧ prefixLen ≤ 24) then
        .error (s!"fake-ip-range '{cidr}' uses a /{prefixLen}; the supported sizes are " ++
          "/16 through /24")
      else
        let rangeStart := network.network
        let poolSize : BitVec 32 := 1 <<< (32 - prefixLen)
        if rangeStart.toNat + poolSize.toNat > (2 ^ 32 - 1) + 1 then
          .error s!"fake-ip-range '{cidr}' runs past 255.255.255.255 and cannot be addressed"
        else
          .ok { rangeStart := rangeStart, poolSize := poolSize }

/-- An entry of the pool. -/
structure FakeIpEntry where
  ip : Ipv4Addr
  domain : String
  expires : Nat
  deriving DecidableEq, Repr

/-- The tables in both directions. -/
structure FakeIpPool where
  config : FakeIpConfig
  domainToIp : Table String FakeIpEntry
  ipToDomain : Table Ipv4Addr String
  nextOffset : BitVec 64

/-- What one call of `allocate` reads from the clock: when it checks the entry
it finds, when its sweep looks at each entry, and when it creates a new one. -/
structure Readings where
  check : Nat
  sweep : String → Nat
  create : Nat

namespace FakeIpPool

/-- An empty pool. -/
def withConfig (config : FakeIpConfig) : FakeIpPool where
  config := config
  domainToIp := ∅
  ipToDomain := ∅
  nextOffset := 0

/-- The number of usable slots: the first three are reserved. -/
def slots (config : FakeIpConfig) : Nat :=
  max (config.poolSize.toNat - 3) 1

/-- The offset that the counter stands for. -/
def offsetOf (config : FakeIpConfig) (count : Nat) : BitVec 32 :=
  3 + BitVec.ofNat 32 (count % slots config)

/-- The next slot in turn. -/
def allocateOffset (pool : FakeIpPool) : BitVec 32 × FakeIpPool :=
  (offsetOf pool.config pool.nextOffset.toNat, { pool with nextOffset := pool.nextOffset + 1 })

/-- The address of a slot. -/
def offsetToIp (config : FakeIpConfig) (offset : BitVec 32) : Ipv4Addr :=
  config.rangeStart + offset

/-- The address of the slot that the counter stands for. -/
def slotIp (config : FakeIpConfig) (count : Nat) : Ipv4Addr :=
  offsetToIp config (offsetOf config count)

/-- The domain of an address. -/
def lookup (pool : FakeIpPool) (ip : Ipv4Addr) : Option String :=
  pool.ipToDomain.lookup ip

/-- Whether an address is in the range. -/
def isFakeIp (config : FakeIpConfig) (ip : Ipv4Addr) : Bool :=
  let start := config.rangeStart.toNat
  decide (start ≤ ip.toNat) && decide (ip.toNat < start + config.poolSize.toNat)

/-- The entries that are over when the sweep looks at them. -/
def expired (pool : FakeIpPool) (now : String → Nat) : List (String × Ipv4Addr) :=
  (pool.domainToIp.entries.filter fun found => decide (found.2.expires ≤ now found.1)).map
    fun found => (found.1, found.2.ip)

/-- Drop an entry from both tables. -/
def drop (pool : FakeIpPool) (found : String × Ipv4Addr) : FakeIpPool :=
  { pool with
    domainToIp := pool.domainToIp.erase found.1
    ipToDomain := pool.ipToDomain.erase found.2 }

/-- Drop what has expired. -/
def cleanup (pool : FakeIpPool) (now : String → Nat) : FakeIpPool :=
  (pool.expired now).foldl drop pool

/-- The forward table holds as many entries as there are slots. -/
def full (pool : FakeIpPool) : Bool :=
  decide (wrappingSub pool.config.poolSize.toNat 3 ≤ pool.domainToIp.size)

/-- Sweep when the pool is full; `none` when that frees nothing. -/
def makeRoom (pool : FakeIpPool) (now : String → Nat) : Option FakeIpPool :=
  if pool.full then
    let pool := pool.cleanup now
    if pool.full then none else some pool
  else
    some pool

/-- Empty a slot: forget its domain in both tables. -/
def vacate (pool : FakeIpPool) (ip : Ipv4Addr) : FakeIpPool :=
  match pool.ipToDomain.lookup ip with
  | none => pool
  | some old =>
      { pool with
        ipToDomain := pool.ipToDomain.erase ip
        domainToIp := pool.domainToIp.erase old }

/-- Record a new entry in both tables. -/
def record (pool : FakeIpPool) (domain : String) (ip : Ipv4Addr) (now : Nat) : FakeIpPool :=
  { pool with
    domainToIp := pool.domainToIp.insert domain ⟨ip, domain, now + pool.config.ttl⟩
    ipToDomain := pool.ipToDomain.insert ip domain }

/-- Give a domain the next slot. -/
def create (pool : FakeIpPool) (domain : String) (now : Nat) : FakeIpPool × Ipv4Addr :=
  let (offset, pool) := pool.allocateOffset
  let ip := offsetToIp pool.config offset
  ((pool.vacate ip).record domain ip now, ip)

/-- The entry of a domain, while it is not over. -/
def live (pool : FakeIpPool) (domain : String) (now : Nat) : Option FakeIpEntry :=
  (pool.domainToIp.lookup domain).filter fun found => decide (now < found.expires)

/-- The address of a domain, a new one if need be. -/
def allocate (toLowercase : String → String) (pool : FakeIpPool) (domain : String)
    (readings : Readings) : FakeIpPool × Except SolidTcpError Ipv4Addr :=
  let domain := toLowercase domain
  match pool.live domain readings.check with
  | some found => (pool, .ok found.ip)
  | none =>
      match pool.makeRoom readings.sweep with
      | none => (pool.cleanup readings.sweep, .error .fakeIpPoolExhausted)
      | some pool =>
          let (pool, ip) := pool.create domain readings.create
          (pool, .ok ip)

/-- Empty the pool. -/
def clear (pool : FakeIpPool) : FakeIpPool :=
  { pool with
    domainToIp := ∅
    ipToDomain := ∅
    nextOffset := 3 }

section Tables

variable (pool : FakeIpPool)

section

variable (found : List (String × Ipv4Addr))

@[simp]
theorem config_foldl_drop :
    (found.foldl drop pool).config = pool.config := by
  induction found generalizing pool with
  | nil => rfl
  | cons first found ih => exact ih (pool.drop first)

@[simp]
theorem nextOffset_foldl_drop :
    (found.foldl drop pool).nextOffset = pool.nextOffset := by
  induction found generalizing pool with
  | nil => rfl
  | cons first found ih => exact ih (pool.drop first)

theorem domainToIp_foldl_drop :
    (found.foldl drop pool).domainToIp =
      Table.eraseAll pool.domainToIp (found.map Prod.fst) := by
  induction found generalizing pool with
  | nil => rfl
  | cons first found ih => exact ih (pool.drop first)

theorem ipToDomain_foldl_drop :
    (found.foldl drop pool).ipToDomain =
      Table.eraseAll pool.ipToDomain (found.map Prod.snd) := by
  induction found generalizing pool with
  | nil => rfl
  | cons first found ih => exact ih (pool.drop first)

end

variable {now : String → Nat} {ip : Ipv4Addr}

theorem mem_expired {domain : String} :
    (domain, ip) ∈ pool.expired now ↔
      ∃ found, pool.domainToIp.lookup domain = some found ∧ found.ip = ip ∧
        found.expires ≤ now domain := by
  simp only [expired, List.mem_map, List.mem_filter, decide_eq_true_eq, Prod.mk.injEq]
  constructor
  · rintro ⟨⟨_, found⟩, ⟨member, ended⟩, rfl, ip_eq⟩
    exact ⟨found, AList.mem_lookup_iff.mpr member, ip_eq, ended⟩
  · rintro ⟨found, located, ip_eq, ended⟩
    exact ⟨⟨domain, found⟩, ⟨AList.mem_lookup_iff.mp located, ended⟩, rfl, ip_eq⟩

@[simp]
theorem config_cleanup (now : String → Nat) : (pool.cleanup now).config = pool.config :=
  config_foldl_drop pool _

@[simp]
theorem nextOffset_cleanup (now : String → Nat) :
    (pool.cleanup now).nextOffset = pool.nextOffset :=
  nextOffset_foldl_drop pool _

/-- A sweep keeps exactly the entries that are not over. -/
theorem lookup_domainToIp_cleanup (now : String → Nat) (domain : String) :
    (pool.cleanup now).domainToIp.lookup domain = pool.live domain (now domain) := by
  rw [cleanup, domainToIp_foldl_drop, Table.lookup_eraseAll, live]
  cases located : pool.domainToIp.lookup domain with
  | none => simp
  | some found =>
      have ended : domain ∈ (pool.expired now).map Prod.fst ↔ found.expires ≤ now domain := by
        simp [mem_expired, located]
      by_cases expires : found.expires ≤ now domain
      · rw [if_pos (ended.mpr expires), Option.filter_some, if_neg (by simpa using expires)]
      · rw [if_neg (mt ended.mp expires), Option.filter_some, if_pos (by simpa using expires)]

/-- A sweep forgets an address only with an entry that is ended. -/
theorem lookup_cleanup
    (kept : ∀ domain found, pool.domainToIp.lookup domain = some found → found.ip = ip →
      now domain < found.expires) :
    (pool.cleanup now).lookup ip = pool.lookup ip := by
  have other : ip ∉ (pool.expired now).map Prod.snd := by
    simp only [List.mem_map, Prod.exists, exists_eq_right, not_exists, mem_expired]
    rintro domain found ⟨located, same, ended⟩
    exact absurd ended (Nat.not_le.mpr (kept domain found located same))
  rw [lookup, cleanup, ipToDomain_foldl_drop, Table.lookup_eraseAll_of_notMem other, lookup]

theorem lookup_of_lookup_cleanup {domain : String}
    (named : (pool.cleanup now).lookup ip = some domain) : pool.lookup ip = some domain := by
  rw [lookup, cleanup, ipToDomain_foldl_drop, Table.lookup_eraseAll] at named
  split at named
  · cases named
  · exact named

@[simp]
theorem config_vacate (ip : Ipv4Addr) : (pool.vacate ip).config = pool.config := by
  unfold vacate
  split <;> rfl

@[simp]
theorem nextOffset_vacate (ip : Ipv4Addr) : (pool.vacate ip).nextOffset = pool.nextOffset := by
  unfold vacate
  split <;> rfl

end Tables

end FakeIpPool

end Corduit.Netstack.FakeIp
