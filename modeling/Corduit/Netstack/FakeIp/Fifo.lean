import Corduit.Netstack.FakeIp.Core

/-!
# When an address may be handed out again

Slots are reused in the order in which they were handed out, and an allocation
is refused while every slot is taken, so an address should come back only
after everything allocated since has expired.  The argument counts the entries
created since a given one: while they are all in the forward table, the
counter cannot have gone once around.

Reusing a slot deletes the forward entry of the domain that the slot's reverse
entry names.  After a domain was given a new slot, its old slot still names
it, and the deletion hits the new entry.  `Orderly` excludes exactly that.
-/

namespace Corduit.Netstack.FakeIp

open Collection Transition Word

/-- One call on the pool, with the readings it takes from the clock. -/
inductive PoolOp where
  | allocate (domain : String) (readings : Readings)
  | cleanup (now : String → Nat) (finish : Nat)

/-- A pool and the time at which the last call on it ended. -/
structure Timed where
  pool : FakeIpPool
  clock : Nat

/-- A new pool, at time zero. -/
def Timed.start (config : FakeIpConfig) : Timed where
  pool := .withConfig config
  clock := 0

section Runs

variable (toLowercase : String → String)

/-- An operation at its time. -/
def Timed.step (state : Timed) : PoolOp → Timed
  | .allocate domain readings =>
      ⟨(state.pool.allocate toLowercase domain readings).1, readings.create⟩
  | .cleanup now finish => ⟨state.pool.cleanup now, finish⟩

/-- The readings of a call are no earlier than the call before it, and in the
order in which the call takes them. -/
def Timed.Clocked (state : Timed) : PoolOp → Prop
  | .allocate _ readings =>
      state.clock ≤ readings.check ∧
        ∀ domain, readings.check ≤ readings.sweep domain ∧
          readings.sweep domain ≤ readings.create
  | .cleanup now finish => ∀ domain, state.clock ≤ now domain ∧ now domain ≤ finish

/-- The call gives the domain a new entry. -/
def FakeIpPool.Creates (pool : FakeIpPool) (domain : String) (readings : Readings) : Prop :=
  pool.live (toLowercase domain) readings.check = none ∧
    (pool.makeRoom readings.sweep).isSome = true

/-- The slot that is next in turn does not name a domain that lives at another
address, and the counter does not wrap. -/
def FakeIpPool.ReusesCleanly (pool : FakeIpPool) (now : Nat) : Prop :=
  (∀ old ∈ pool.lookup (FakeIpPool.slotIp pool.config pool.nextOffset.toNat),
    ∀ found ∈ pool.domainToIp.lookup old,
      found.ip = FakeIpPool.slotIp pool.config pool.nextOffset.toNat ∨ found.expires ≤ now) ∧
  pool.nextOffset.toNat + 1 < 2 ^ 64

instance (pool : FakeIpPool) (domain : String) (readings : Readings) :
    Decidable (pool.Creates toLowercase domain readings) :=
  inferInstanceAs (Decidable (_ ∧ _))

instance (pool : FakeIpPool) (now : Nat) : Decidable (pool.ReusesCleanly now) :=
  inferInstanceAs (Decidable (_ ∧ _))

/-- A call that creates an entry reuses its slot cleanly. -/
def Timed.Orderly (state : Timed) : PoolOp → Prop
  | .allocate domain readings =>
      state.pool.Creates toLowercase domain readings →
        state.pool.ReusesCleanly readings.create
  | .cleanup _ _ => True

/-- In this run, every address that an allocation creates an entry for keeps
its domain until the entry expires. -/
def HeldUntilExpiry (config : FakeIpConfig) (ops : List PoolOp) : Prop :=
  ∀ before domain readings after, ops = before ++ .allocate domain readings :: after →
    let created := run (Timed.step toLowercase) (.start config) before
    created.pool.Creates toLowercase domain readings →
    (run (Timed.step toLowercase) (.start config) ops).clock < readings.create + config.ttl →
    ∃ ip, (created.pool.allocate toLowercase domain readings).2 = .ok ip ∧
      (run (Timed.step toLowercase) (.start config) ops).pool.lookup ip =
        some (toLowercase domain)

end Runs

namespace FakeIpPool

/-- Every forward entry is named by the reverse entry of its address. -/
def Consistent (pool : FakeIpPool) : Prop :=
  ∀ domain found, pool.domainToIp.lookup domain = some found →
    pool.lookup found.ip = some domain

theorem consistent_withConfig (config : FakeIpConfig) : (withConfig config).Consistent := by
  intro domain found located
  simp [withConfig] at located

section

variable {pool : FakeIpPool}

theorem live_eq_some {domain : String} {now : Nat} {found : FakeIpEntry} :
    pool.live domain now = some found ↔
      pool.domainToIp.lookup domain = some found ∧ now < found.expires := by
  simp [live, Option.filter_eq_some_iff]

theorem Consistent.injective (consistent : pool.Consistent) {first second : String}
    {found other : FakeIpEntry} (firstAt : pool.domainToIp.lookup first = some found)
    (secondAt : pool.domainToIp.lookup second = some other) (same : found.ip = other.ip) :
    first = second := by
  have named := consistent first found firstAt
  rw [same, consistent second other secondAt] at named
  exact (Option.some.inj named).symm

theorem Consistent.cleanup (consistent : pool.Consistent) (now : String → Nat) :
    (pool.cleanup now).Consistent := by
  intro domain found located
  rw [lookup_domainToIp_cleanup, live_eq_some] at located
  have kept : (pool.cleanup now).lookup found.ip = pool.lookup found.ip := by
    apply lookup_cleanup pool
    intro other entry otherAt same
    obtain rfl := consistent.injective otherAt located.1 same
    obtain rfl : entry = found := Option.some.inj (otherAt.symm.trans located.1)
    exact located.2
  rw [kept]
  exact consistent domain found located.1

theorem lookup_vacate {ip : Ipv4Addr} {domain : String} {found : FakeIpEntry} :
    (pool.vacate ip).domainToIp.lookup domain = some found ↔
      pool.domainToIp.lookup domain = some found ∧ pool.lookup ip ≠ some domain := by
  unfold vacate lookup
  cases named : pool.ipToDomain.lookup ip with
  | none => simp
  | some old =>
      by_cases same : domain = old
      · subst same
        simp
      · simp [same, Ne.symm same]

theorem lookup_vacate_ne {ip other : Ipv4Addr} (elsewhere : other ≠ ip) :
    (pool.vacate ip).lookup other = pool.lookup other := by
  unfold vacate lookup
  split <;> simp [elsewhere]

theorem Consistent.record_vacate (consistent : pool.Consistent) (domain : String) (ip : Ipv4Addr)
    (now : Nat) :
    ((pool.vacate ip).record domain ip now).Consistent := by
  intro other found located
  by_cases same : other = domain
  · subst same
    obtain rfl : FakeIpEntry.mk ip other _ = found := by simpa [record] using located
    simp [record, lookup]
  · have before : (pool.vacate ip).domainToIp.lookup other = some found := by
      simpa [record, same] using located
    rcases lookup_vacate.mp before with ⟨located, notNamed⟩
    have named := consistent other found located
    have elsewhere : found.ip ≠ ip := by
      rintro rfl
      exact notNamed named
    have skipped : ((pool.vacate ip).record domain ip now).lookup found.ip =
        (pool.vacate ip).lookup found.ip := AList.lookup_insert_ne elsewhere
    rw [skipped, lookup_vacate_ne elsewhere, named]

end

section

variable (pool : FakeIpPool) (domain : String) (now : Nat)

@[simp]
theorem config_create :
    (pool.create domain now).1.config = pool.config :=
  config_vacate _ _

theorem nextOffset_create :
    (pool.create domain now).1.nextOffset = pool.nextOffset + 1 :=
  nextOffset_vacate _ _

theorem lookup_create :
    (pool.create domain now).1.domainToIp.lookup domain =
      some ⟨slotIp pool.config pool.nextOffset.toNat, domain, now + pool.config.ttl⟩ := by
  apply (AList.lookup_insert _).trans
  rw [config_vacate]
  rfl

end

variable {pool : FakeIpPool}

theorem lookup_create_ne {domain other : String} {now : Nat} {found : FakeIpEntry}
    (different : other ≠ domain) :
    (pool.create domain now).1.domainToIp.lookup other = some found ↔
      pool.domainToIp.lookup other = some found ∧
        pool.lookup (slotIp pool.config pool.nextOffset.toNat) ≠ some other := by
  apply Iff.trans (Eq.congr_left (AList.lookup_insert_ne different))
  exact lookup_vacate

theorem slots_pos (config : FakeIpConfig) : 0 < slots config := by
  unfold slots
  omega

theorem slots_lt (config : FakeIpConfig) : slots config < 2 ^ 32 := by
  have bound := config.poolSize.isLt
  unfold slots
  omega

/-- Two counts stand for one address only when they are a whole number of
rounds apart. -/
theorem slotIp_inj {config : FakeIpConfig} {first second : Nat}
    (same : slotIp config first = slotIp config second) :
    first % slots config = second % slots config := by
  have bound := slots_lt config
  have firstLt := Nat.mod_lt first (slots_pos config)
  have secondLt := Nat.mod_lt second (slots_pos config)
  have offsets : BitVec.ofNat 32 (first % slots config) =
      BitVec.ofNat 32 (second % slots config) := by
    simpa [slotIp, offsetToIp, offsetOf] using same
  have values := congrArg BitVec.toNat offsets
  simp only [BitVec.toNat_ofNat] at values
  omega

theorem slotIp_ne {config : FakeIpConfig} {start near far : Nat} (order : near < far)
    (round : far < slots config) :
    slotIp config (start + near) ≠ slotIp config (start + far) := by
  intro same
  have rounds := (Nat.modEq_iff_dvd' (by omega)).mp (slotIp_inj same)
  have apart : start + far - (start + near) = far - near := by omega
  rw [apart] at rounds
  exact absurd (Nat.le_of_dvd (by omega) rounds) (by omega)

/-- Everything created from count `start` on is still in the forward table and
does not expire before `deadline`; `domains` lists it in order of creation. -/
structure Window (pool : FakeIpPool) (start deadline : Nat) (domains : List String) : Prop where
  distinct : domains.Nodup
  counted : start + domains.length = pool.nextOffset.toNat
  located : ∀ index domain, domains[index]? = some domain →
    ∃ found, pool.domainToIp.lookup domain = some found ∧
      found.ip = slotIp pool.config (start + index) ∧ deadline ≤ found.expires

theorem Window.of_kept {pool pool' : FakeIpPool} {start deadline : Nat} {domains : List String}
    (window : pool.Window start deadline domains)
    (config_eq : pool'.config = pool.config) (next_eq : pool'.nextOffset = pool.nextOffset)
    (kept : ∀ domain found, pool.domainToIp.lookup domain = some found →
      deadline ≤ found.expires → pool'.domainToIp.lookup domain = some found) :
    pool'.Window start deadline domains := by
  refine ⟨window.distinct, by rw [next_eq, window.counted], fun index domain member => ?_⟩
  rcases window.located index domain member with ⟨found, located, ip_eq, later⟩
  exact ⟨found, kept domain found located later, by rw [ip_eq, config_eq], later⟩

section

variable {pool : FakeIpPool} {start deadline : Nat} {domains : List String}
  (window : pool.Window start deadline domains)

include window

theorem Window.cleanup {now : String → Nat} (early : ∀ domain, now domain < deadline) :
    (pool.cleanup now).Window start deadline domains := by
  apply window.of_kept (config_cleanup pool now) (nextOffset_cleanup pool now)
  intro domain found located later
  rw [lookup_domainToIp_cleanup, live_eq_some]
  exact ⟨located, (early domain).trans_le later⟩

theorem Window.length_lt (large : 3 < pool.config.poolSize.toNat) (room : pool.full = false) :
    domains.length < slots pool.config := by
  have fits : domains.length ≤ pool.domainToIp.size := by
    apply Table.length_le_size window.distinct
    intro domain member
    rcases List.getElem?_of_mem member with ⟨index, at_⟩
    rcases window.located index domain at_ with ⟨found, located, _⟩
    rw [located]
    rfl
  have below : pool.domainToIp.size < wrappingSub pool.config.poolSize.toNat 3 := by
    simpa [full] using room
  rw [wrappingSub_of_le (by omega)] at below
  unfold slots
  omega

theorem Window.create (large : 3 < pool.config.poolSize.toNat) (room : pool.full = false)
    {domain : String} {now : Nat} (early : now < deadline) (new : domain ∉ domains)
    (clean : pool.ReusesCleanly now) (late : deadline ≤ now + pool.config.ttl) :
    (pool.create domain now).1.Window start deadline (domains ++ [domain]) := by
  have short := window.length_lt large room
  refine ⟨?_, ?_, fun index other member => ?_⟩
  · exact List.nodup_append.mpr ⟨window.distinct, by simp, by simpa using fun other => by grind⟩
  · rw [nextOffset_create, BitVec.toNat_add, List.length_append, List.length_singleton,
      ← Nat.add_assoc, window.counted]
    exact (Nat.mod_eq_of_lt clean.2).symm
  · rw [config_create]
    by_cases old : index < domains.length
    · rw [List.getElem?_append_left old] at member
      rcases window.located index other member with ⟨found, located, ip_eq, later⟩
      have elsewhere : found.ip ≠ slotIp pool.config pool.nextOffset.toNat := by
        rw [ip_eq, ← window.counted]
        exact slotIp_ne old short
      have different : other ≠ domain := by
        rintro rfl
        exact new (List.mem_of_getElem? member)
      have notNamed : pool.lookup (slotIp pool.config pool.nextOffset.toNat) ≠ some other := by
        intro named
        rcases clean.1 other named found located with here | ended
        · exact elsewhere here
        · omega
      exact ⟨found, (lookup_create_ne different).mpr ⟨located, notNamed⟩, ip_eq, later⟩
    · obtain ⟨rfl, rfl⟩ : index = domains.length ∧ other = domain := by
        rw [List.getElem?_append_right (by omega)] at member
        have bound := (List.getElem?_eq_some_iff.mp member).1
        simp only [List.length_singleton] at bound
        have last : index - domains.length = 0 := by omega
        rw [last] at member
        exact ⟨by omega, (by simpa using member : domain = other).symm⟩
      exact ⟨_, lookup_create pool other now, by rw [window.counted], late⟩

end

theorem window_create (pool : FakeIpPool) (domain : String) (now : Nat)
    (noWrap : pool.nextOffset.toNat + 1 < 2 ^ 64) :
    (pool.create domain now).1.Window pool.nextOffset.toNat (now + pool.config.ttl) [domain] := by
  refine ⟨by simp, ?_, fun index other member => ?_⟩
  · rw [nextOffset_create, BitVec.toNat_add]
    exact (Nat.mod_eq_of_lt noWrap).symm
  · obtain ⟨rfl, rfl⟩ : index = 0 ∧ domain = other := by
      cases index with
      | zero => exact ⟨rfl, by simpa using member⟩
      | succ index => simp at member
    exact ⟨_, lookup_create pool domain now, by rw [config_create]; rfl, le_refl _⟩

theorem Consistent.create (consistent : pool.Consistent) (domain : String) (now : Nat) :
    (pool.create domain now).1.Consistent :=
  have counted : Consistent { pool with nextOffset := pool.nextOffset + 1 } := consistent
  counted.record_vacate domain _ now

theorem makeRoom_eq_some {pool room : FakeIpPool} {now : String → Nat}
    (made : pool.makeRoom now = some room) :
    room.full = false ∧ (room = pool ∨ room = pool.cleanup now) := by
  unfold makeRoom at made
  split at made
  · dsimp only at made
    split at made
    · cases made
    · rename_i notFull
      obtain rfl := Option.some.inj made
      exact ⟨by simpa using notFull, Or.inr rfl⟩
  · rename_i notFull
    obtain rfl := Option.some.inj made
    exact ⟨by simpa using notFull, Or.inl rfl⟩

theorem makeRoom_invariant (property : FakeIpPool → Prop) {pool room : FakeIpPool}
    {now : String → Nat} (made : pool.makeRoom now = some room)
    (holds : property pool) (swept : property (pool.cleanup now)) : property room := by
  rcases (makeRoom_eq_some made).2 with rfl | rfl
  · exact holds
  · exact swept

theorem allocate_cases (toLowercase : String → String) (pool : FakeIpPool) (domain : String)
    (readings : Readings) :
    (∃ found, pool.live (toLowercase domain) readings.check = some found ∧
      pool.allocate toLowercase domain readings = (pool, .ok found.ip)) ∨
    (¬ pool.Creates toLowercase domain readings ∧
      pool.allocate toLowercase domain readings =
        (pool.cleanup readings.sweep, .error .fakeIpPoolExhausted)) ∨
    (∃ room, pool.live (toLowercase domain) readings.check = none ∧
      pool.makeRoom readings.sweep = some room ∧
      pool.allocate toLowercase domain readings =
        ((room.create (toLowercase domain) readings.create).1,
          .ok (slotIp room.config room.nextOffset.toNat))) := by
  unfold allocate Creates
  dsimp only
  cases live : pool.live (toLowercase domain) readings.check with
  | some found => exact Or.inl ⟨found, rfl, rfl⟩
  | none =>
      cases made : pool.makeRoom readings.sweep with
      | none => exact Or.inr (Or.inl ⟨by simp, rfl⟩)
      | some room => exact Or.inr (Or.inr ⟨room, rfl, rfl, rfl⟩)

theorem Creates.outcome {toLowercase : String → String} {pool : FakeIpPool} {domain : String}
    {readings : Readings} (creates : pool.Creates toLowercase domain readings) :
    ∃ room, pool.makeRoom readings.sweep = some room ∧
      pool.allocate toLowercase domain readings =
        ((room.create (toLowercase domain) readings.create).1,
          .ok (slotIp room.config room.nextOffset.toNat)) := by
  rcases allocate_cases toLowercase pool domain readings with
    ⟨found, live, _⟩ | ⟨none, _⟩ | ⟨room, _, made, outcome⟩
  · rw [creates.1] at live
    cases live
  · exact absurd creates none
  · exact ⟨room, made, outcome⟩

theorem Consistent.allocate (consistent : pool.Consistent) (toLowercase : String → String)
    (domain : String) (readings : Readings) :
    (pool.allocate toLowercase domain readings).1.Consistent := by
  rcases allocate_cases toLowercase pool domain readings with
    ⟨_, _, outcome⟩ | ⟨_, outcome⟩ | ⟨room, _, made, outcome⟩
  · rwa [outcome]
  · rw [outcome]
    exact consistent.cleanup _
  · rw [outcome]
    exact (makeRoom_invariant Consistent made consistent (consistent.cleanup _)).create _ _

@[simp]
theorem config_allocate (toLowercase : String → String) (pool : FakeIpPool) (domain : String)
    (readings : Readings) :
    (pool.allocate toLowercase domain readings).1.config = pool.config := by
  rcases allocate_cases toLowercase pool domain readings with
    ⟨_, _, outcome⟩ | ⟨_, outcome⟩ | ⟨room, _, made, outcome⟩
  · rw [outcome]
  · rw [outcome, config_cleanup]
  · rw [outcome, config_create]
    exact makeRoom_invariant (fun room => room.config = pool.config) made rfl
      (config_cleanup _ _)

theorem ReusesCleanly.cleanup {now : Nat} (clean : pool.ReusesCleanly now) (sweep : String → Nat) :
    (pool.cleanup sweep).ReusesCleanly now := by
  refine ⟨fun old named found located => ?_, by rw [nextOffset_cleanup]; exact clean.2⟩
  rw [Option.mem_def, lookup_domainToIp_cleanup, live_eq_some] at located
  rw [config_cleanup, nextOffset_cleanup] at named ⊢
  exact clean.1 old (lookup_of_lookup_cleanup pool named) found located.1

end FakeIpPool

namespace Timed

variable (toLowercase : String → String)

/-- The entry created at count `start` for `domain` is in its place, with
everything created since, until `deadline`. -/
structure Tracked (state : Timed) (config : FakeIpConfig) (start deadline : Nat)
    (domain : String) : Prop where
  config_eq : state.pool.config = config
  consistent : state.pool.Consistent
  window : state.clock < deadline →
    ∃ domains, domains[0]? = some domain ∧ state.pool.Window start deadline domains
  past : deadline ≤ state.clock + config.ttl

variable {state : Timed} {config : FakeIpConfig} {start deadline : Nat} {domain : String}
  (tracked : state.Tracked config start deadline domain)

include tracked

theorem Tracked.lookup (early : state.clock < deadline) :
    state.pool.lookup (FakeIpPool.slotIp config start) = some domain := by
  rcases tracked.window early with ⟨domains, first, window⟩
  rcases window.located 0 domain first with ⟨found, located, ip_eq, _⟩
  have named := tracked.consistent domain found located
  rwa [ip_eq, tracked.config_eq] at named

theorem Tracked.cleanup {now : String → Nat} {finish : Nat}
    (ordered : ∀ domain, state.clock ≤ now domain ∧ now domain ≤ finish) :
    Tracked ⟨state.pool.cleanup now, finish⟩ config start deadline domain := by
  have past := tracked.past
  have reading := ordered ""
  refine ⟨?_, tracked.consistent.cleanup now, fun early => ?_, by dsimp only; omega⟩
  · rw [FakeIpPool.config_cleanup, tracked.config_eq]
  · dsimp only at early
    rcases tracked.window (by omega) with ⟨domains, first, window⟩
    refine ⟨domains, first, window.cleanup fun domain => ?_⟩
    have := ordered domain
    omega

theorem Tracked.create (large : 3 < config.poolSize.toNat) {room : FakeIpPool} {readings : Readings}
    (made : state.pool.makeRoom readings.sweep = some room) {other : String}
    (absent : state.pool.live other readings.check = none)
    (ordered : state.clock ≤ readings.check ∧
      ∀ domain, readings.check ≤ readings.sweep domain ∧ readings.sweep domain ≤ readings.create)
    (clean : state.pool.ReusesCleanly readings.create) :
    Tracked ⟨(room.create other readings.create).1, readings.create⟩ config start deadline
      domain := by
  have config_eq : room.config = config := by
    apply FakeIpPool.makeRoom_invariant (fun room => room.config = config) made
      tracked.config_eq
    rw [FakeIpPool.config_cleanup, tracked.config_eq]
  have consistent := FakeIpPool.makeRoom_invariant FakeIpPool.Consistent made tracked.consistent
    (tracked.consistent.cleanup _)
  have before := ordered.2 ""
  have past := tracked.past
  have due : deadline ≤ readings.create + config.ttl := by omega
  refine ⟨by rw [FakeIpPool.config_create, config_eq], consistent.create other _,
    fun early => ?_, due⟩
  dsimp only at early
  rcases tracked.window (by omega) with ⟨domains, first, window⟩
  -- A domain of the window has an entry that is not over, so it would have been found.
  have new : other ∉ domains := by
    intro member
    rcases List.getElem?_of_mem member with ⟨index, located⟩
    rcases window.located index other located with ⟨found, located, _, later⟩
    have live := FakeIpPool.live_eq_some.mpr ⟨located, (by omega : readings.check < found.expires)⟩
    rw [absent] at live
    cases live
  have swept : (state.pool.cleanup readings.sweep).Window start deadline domains := by
    apply window.cleanup
    intro domain
    have := ordered.2 domain
    omega
  have windowRoom := FakeIpPool.makeRoom_invariant
    (fun room => room.Window start deadline domains) made window swept
  have cleanRoom := FakeIpPool.makeRoom_invariant
    (fun room => room.ReusesCleanly readings.create) made clean (clean.cleanup _)
  refine ⟨domains ++ [other], ?_, windowRoom.create (by rwa [config_eq])
    (FakeIpPool.makeRoom_eq_some made).1 early new cleanRoom (by rwa [config_eq])⟩
  rw [List.getElem?_append_left (List.getElem?_eq_some_iff.mp first).1]
  exact first

theorem Tracked.step (large : 3 < config.poolSize.toNat) {op : PoolOp} (clocked : state.Clocked op)
    (orderly : state.Orderly toLowercase op) :
    (state.step toLowercase op).Tracked config start deadline domain := by
  cases op with
  | cleanup now finish => exact tracked.cleanup clocked
  | allocate other readings =>
      have ordered := clocked.2 ""
      have reading := clocked.1
      rcases FakeIpPool.allocate_cases toLowercase state.pool other readings with
        ⟨found, _, outcome⟩ | ⟨_, outcome⟩ | ⟨room, absent, made, outcome⟩
      · rw [Timed.step, outcome]
        have past := tracked.past
        exact ⟨tracked.config_eq, tracked.consistent, fun early =>
          tracked.window (by dsimp only at early; omega), by dsimp only; omega⟩
      · rw [Timed.step, outcome]
        apply tracked.cleanup
        intro domain
        have := clocked.2 domain
        omega
      · rw [Timed.step, outcome]
        have creates : state.pool.Creates toLowercase other readings :=
          ⟨absent, by rw [made]; rfl⟩
        exact tracked.create large made absent clocked (orderly creates)

end Timed

/-- The invariant that needs no condition: the tables agree. -/
theorem consistent_run (toLowercase : String → String) (config : FakeIpConfig)
    (ops : List PoolOp) :
    let state := run (Timed.step toLowercase) (.start config) ops
    state.pool.config = config ∧ state.pool.Consistent := by
  refine run_invariant
    (fun state : Timed => state.pool.config = config ∧ state.pool.Consistent) ?_
    ⟨rfl, FakeIpPool.consistent_withConfig config⟩ ops
  rintro state op ⟨config_eq, consistent⟩
  cases op with
  | allocate domain readings =>
      exact ⟨by rw [Timed.step, FakeIpPool.config_allocate, config_eq],
        consistent.allocate toLowercase domain readings⟩
  | cleanup now finish =>
      exact ⟨by rw [Timed.step, FakeIpPool.config_cleanup, config_eq], consistent.cleanup now⟩

/-- If every reuse of a slot in the run is clean, an address that was handed
out keeps its domain until its entry expires. -/
theorem heldUntilExpiry_of_orderly (toLowercase : String → String) {config : FakeIpConfig}
    (large : 3 < config.poolSize.toNat) {ops : List PoolOp}
    (clocked : RunMeets (Timed.step toLowercase) Timed.Clocked (.start config) ops)
    (orderly : RunMeets (Timed.step toLowercase) (Timed.Orderly toLowercase) (.start config)
      ops) :
    HeldUntilExpiry toLowercase config ops := by
  rintro before domain readings after rfl created creates early
  rcases (runMeets_append _ _ _).mp clocked with ⟨_, clockedHere, clockedAfter⟩
  rcases (runMeets_append _ _ _).mp orderly with ⟨_, orderlyHere, orderlyAfter⟩
  rcases consistent_run toLowercase config before with ⟨config_eq, consistent⟩
  rcases creates.outcome with ⟨room, made, outcome⟩
  have config_room : room.config = config :=
    FakeIpPool.makeRoom_invariant (fun room => room.config = config) made config_eq
      ((FakeIpPool.config_cleanup _ _).trans config_eq)
  have clean := FakeIpPool.makeRoom_invariant (fun room => room.ReusesCleanly readings.create)
    made (orderlyHere creates) ((orderlyHere creates).cleanup _)
  have tracked : (created.step toLowercase (.allocate domain readings)).Tracked config
      room.nextOffset.toNat (readings.create + config.ttl) (toLowercase domain) := by
    refine ⟨?_, consistent.allocate toLowercase domain readings, fun _ => ?_, le_refl _⟩
    · exact (FakeIpPool.config_allocate _ _ _ _).trans config_eq
    · refine ⟨[toLowercase domain], rfl, ?_⟩
      have window := room.window_create (toLowercase domain) readings.create clean.2
      rw [config_room] at window
      rwa [Timed.step, outcome]
  have final := run_invariant_of_meets
    (fun state : Timed => state.Tracked config room.nextOffset.toNat
      (readings.create + config.ttl) (toLowercase domain))
    (fun _ _ tracked meets => tracked.step toLowercase large meets.1 meets.2)
    tracked (runMeets_and clockedAfter orderlyAfter)
  rw [run_append, run_cons] at early ⊢
  refine ⟨_, congrArg Prod.snd outcome, ?_⟩
  rw [config_room]
  exact final.lookup early

/-- A pool of two slots whose entries live for ten seconds. -/
def FakeIpConfig.twoSlots : FakeIpConfig where
  poolSize := 5
  ttl := 10

/-- Readings of a call that takes no time. -/
def Readings.instant (now : Nat) : Readings where
  check := now
  sweep _ := now
  create := now

/-- Both slots are taken, and the third domain waits until they have expired.
The names are in lower case already. -/
def patientRun : List PoolOp :=
  [.allocate "a" (.instant 0), .allocate "b" (.instant 1), .allocate "c" (.instant 11)]

theorem heldUntilExpiry_patientRun :
    HeldUntilExpiry id .twoSlots patientRun := by
  apply heldUntilExpiry_of_orderly id (by decide)
  · simp [patientRun, RunMeets, Timed.Clocked, Timed.step, Timed.start, Readings.instant]
  · refine ⟨?_, ?_, ?_, trivial⟩ <;> exact fun _ => by decide

/-- The first domain comes back after its entry has expired and gets the second
slot, while the first slot still names it. -/
def staleNameRun : List PoolOp :=
  [.allocate "a" (.instant 0), .allocate "a" (.instant 10), .allocate "b" (.instant 11),
    .allocate "c" (.instant 12)]

/-- The second slot, given out at time ten for ten seconds, belongs to another
domain at time twelve. -/
theorem staleName_not_held :
    RunMeets (Timed.step id) Timed.Clocked (.start .twoSlots) staleNameRun ∧
    (run (Timed.step id) (.start .twoSlots) staleNameRun).pool.lookup 0xC6120004 =
      some "c" ∧
    ¬ HeldUntilExpiry id .twoSlots staleNameRun := by
  refine ⟨?_, by decide, fun held => ?_⟩
  · simp [staleNameRun, RunMeets, Timed.Clocked, Timed.step, Timed.start, Readings.instant]
  · obtain ⟨ip, given, named⟩ := held [.allocate "a" (.instant 0)] "a" (.instant 10)
      [.allocate "b" (.instant 11), .allocate "c" (.instant 12)] rfl (by decide) (by decide)
    obtain rfl : (0xC6120004 : Ipv4Addr) = ip := Except.ok.inj ((by decide :
      ((run (Timed.step id) (.start .twoSlots)
        [.allocate "a" (.instant 0)]).pool.allocate id "a" (.instant 10)).2 =
          .ok 0xC6120004).symm.trans given)
    exact absurd named (by decide)

/-!
# The forward table of the fake-IP pool

Whatever is called on a pool whose range comes from a CIDR, the forward table
stays an injection into the usable addresses: every entry is named by the
reverse entry of its address, its address is a slot of the range behind the
three reserved ones, and there are no more entries than slots.

An entry's address is always that of some count, so the range is a fact about
`slotIp` alone, and the number of entries grows only behind the check for room.
-/

/-- One call on the pool, with the readings it takes from the clock. -/
inductive PoolCall where
  | allocate (domain : String) (readings : Readings)
  | cleanup (now : String → Nat)
  | clear

/-- A call on the pool. -/
def FakeIpPool.call (toLowercase : String → String) (pool : FakeIpPool) : PoolCall → FakeIpPool
  | .allocate domain readings => (pool.allocate toLowercase domain readings).1
  | .cleanup now => pool.cleanup now
  | .clear => pool.clear

/-- A range that holds more than the reserved addresses and does not wrap. -/
structure FakeIpConfig.Addressable (config : FakeIpConfig) : Prop where
  usable : 3 < config.poolSize.toNat
  inRange : config.rangeStart.toNat + config.poolSize.toNat ≤ 2 ^ 32

theorem FakeIpConfig.addressable_of_fromCidr {parseNet : String → Except String IpNet}
    {cidr : String} {config : FakeIpConfig}
    (parsed : FakeIpConfig.fromCidr parseNet cidr = .ok config) : config.Addressable := by
  unfold FakeIpConfig.fromCidr at parsed
  split at parsed
  · cases parsed
  · cases parsed
  · rename_i network _
    dsimp only at parsed
    split at parsed
    · cases parsed
    · rename_i sized
      split at parsed
      · cases parsed
      · rename_i fits
        obtain rfl := Except.ok.inj parsed
        have length : 16 ≤ network.prefixLen ∧ network.prefixLen ≤ 24 := Decidable.not_not.mp sized
        constructor
        · have sizes : ∀ prefixLen, 16 ≤ prefixLen → prefixLen ≤ 24 →
              3 < ((1 : BitVec 32) <<< (32 - prefixLen)).toNat := by decide
          exact sizes _ length.1 length.2
        · dsimp only at fits ⊢
          omega

namespace FakeIpPool

section

variable {config : FakeIpConfig} (range : config.Addressable) (count : Nat)

include range

theorem toNat_slotIp :
    (slotIp config count).toNat =
      config.rangeStart.toNat + 3 + count % slots config := by
  have inRange := range.inRange
  have usable := range.usable
  have below := Nat.mod_lt count (slots_pos config)
  have slots_eq : slots config = config.poolSize.toNat - 3 := by
    unfold slots
    omega
  have three : (3 : BitVec 32).toNat = 3 := rfl
  rw [slotIp, offsetToIp, offsetOf, BitVec.toNat_add, BitVec.toNat_add, BitVec.toNat_ofNat, three,
    Nat.mod_eq_of_lt (by omega : count % slots config < 2 ^ 32),
    Nat.mod_eq_of_lt (by omega : 3 + count % slots config < 2 ^ 32), Nat.mod_eq_of_lt (by omega)]
  omega

theorem isFakeIp_slotIp :
    isFakeIp config (slotIp config count) = true := by
  have usable := range.usable
  have below := Nat.mod_lt count (slots_pos config)
  have slots_eq : slots config = config.poolSize.toNat - 3 := by
    unfold slots
    omega
  simp only [isFakeIp, toNat_slotIp range, Bool.and_eq_true, decide_eq_true_eq]
  omega

theorem slotIp_ne_reserved {reserved : Nat} (first : reserved < 3) :
    slotIp config count ≠ offsetToIp config (BitVec.ofNat 32 reserved) := by
  intro same
  have inRange := range.inRange
  have usable := range.usable
  have values := congrArg BitVec.toNat same
  rw [toNat_slotIp range, offsetToIp, BitVec.toNat_add, BitVec.toNat_ofNat,
    Nat.mod_eq_of_lt (by omega : reserved < 2 ^ 32), Nat.mod_eq_of_lt (by omega)] at values
  omega

end

/-- The tables agree, every entry is in a slot, and there are no more entries
than slots. -/
structure Coherent (config : FakeIpConfig) (pool : FakeIpPool) : Prop where
  config_eq : pool.config = config
  consistent : pool.Consistent
  placed : ∀ domain found, pool.domainToIp.lookup domain = some found →
    ∃ count, found.ip = slotIp config count
  bounded : pool.domainToIp.size ≤ config.poolSize.toNat - 3

namespace Coherent

variable {config : FakeIpConfig} {pool : FakeIpPool}

theorem withConfig (config : FakeIpConfig) : Coherent config (.withConfig config) where
  config_eq := rfl
  consistent := consistent_withConfig config
  placed domain found located := by simp [FakeIpPool.withConfig] at located
  bounded := Nat.zero_le _

theorem clear (coherent : Coherent config pool) : Coherent config pool.clear where
  config_eq := coherent.config_eq
  consistent domain found located := by simp [FakeIpPool.clear] at located
  placed domain found located := by simp [FakeIpPool.clear] at located
  bounded := Nat.zero_le _

theorem cleanup (coherent : Coherent config pool) (now : String → Nat) :
    Coherent config (pool.cleanup now) where
  config_eq := (config_cleanup pool now).trans coherent.config_eq
  consistent := coherent.consistent.cleanup now
  placed domain found located := by
    rw [lookup_domainToIp_cleanup, live_eq_some] at located
    exact coherent.placed domain found located.1
  bounded := by
    rw [FakeIpPool.cleanup, domainToIp_foldl_drop]
    exact Nat.le_trans (Table.size_eraseAll_le _ _) coherent.bounded

end Coherent

theorem size_vacate_le (pool : FakeIpPool) (ip : Ipv4Addr) :
    (pool.vacate ip).domainToIp.size ≤ pool.domainToIp.size := by
  unfold vacate
  split
  · exact le_rfl
  · exact Table.size_erase_le _ _

theorem size_create_le (pool : FakeIpPool) (domain : String) (now : Nat) :
    (pool.create domain now).1.domainToIp.size ≤ pool.domainToIp.size + 1 :=
  Nat.le_trans (Table.size_insert_le _ _ _) (Nat.succ_le_succ (size_vacate_le _ _))

section

variable {config : FakeIpConfig} {pool : FakeIpPool} (coherent : Coherent config pool)
  (usable : 3 < config.poolSize.toNat)

include coherent usable

theorem Coherent.create (room : pool.full = false) (domain : String) (now : Nat) :
    Coherent config (pool.create domain now).1 where
  config_eq := (config_create pool domain now).trans coherent.config_eq
  consistent := coherent.consistent.create domain now
  placed other found located := by
    by_cases same : other = domain
    · subst same
      rw [lookup_create] at located
      obtain rfl := Option.some.inj located
      exact ⟨pool.nextOffset.toNat, by rw [coherent.config_eq]⟩
    · exact coherent.placed other found ((lookup_create_ne same).mp located).1
  bounded := by
    have grows := size_create_le pool domain now
    have below : pool.domainToIp.size < wrappingSub pool.config.poolSize.toNat 3 := by
      simpa [full] using room
    rw [coherent.config_eq, wrappingSub_of_le (by omega)] at below
    omega

theorem Coherent.allocate (toLowercase : String → String) (domain : String) (readings : Readings) :
    Coherent config (pool.allocate toLowercase domain readings).1 := by
  rcases allocate_cases toLowercase pool domain readings with
    ⟨_, _, outcome⟩ | ⟨_, outcome⟩ | ⟨room, _, made, outcome⟩
  · rwa [outcome]
  · rw [outcome]
    exact coherent.cleanup readings.sweep
  · rw [outcome]
    have swept := makeRoom_invariant (Coherent config) made coherent
      (coherent.cleanup readings.sweep)
    exact swept.create usable (makeRoom_eq_some made).1 _ _

end

theorem Coherent.call {config : FakeIpConfig} {pool : FakeIpPool}
    (coherent : Coherent config pool) (usable : 3 < config.poolSize.toNat)
    (toLowercase : String → String) (call : PoolCall) :
    Coherent config (pool.call toLowercase call) := by
  cases call with
  | allocate domain readings => exact coherent.allocate usable toLowercase domain readings
  | cleanup now => exact coherent.cleanup now
  | clear => exact coherent.clear

end FakeIpPool

/-- After any calls on a pool over a CIDR, every forward entry is named by the
reverse entry of its address, no two domains share an address, addresses are
in the range and not reserved, and the entries fit into the slots. -/
theorem forward_coherent {parseNet : String → Except String IpNet} {cidr : String}
    {config : FakeIpConfig} (parsed : FakeIpConfig.fromCidr parseNet cidr = .ok config)
    (toLowercase : String → String) (calls : List PoolCall) :
    let pool := run (FakeIpPool.call toLowercase) (.withConfig config) calls
    (∀ domain found, pool.domainToIp.lookup domain = some found →
      pool.ipToDomain.lookup found.ip = some domain ∧
      FakeIpPool.isFakeIp config found.ip = true ∧
      ∀ reserved < 3, found.ip ≠ FakeIpPool.offsetToIp config (BitVec.ofNat 32 reserved)) ∧
    (∀ first second found other, pool.domainToIp.lookup first = some found →
      pool.domainToIp.lookup second = some other → found.ip = other.ip → first = second) ∧
    pool.domainToIp.size ≤ config.poolSize.toNat - 3 := by
  have range := FakeIpConfig.addressable_of_fromCidr parsed
  have coherent : FakeIpPool.Coherent config
      (run (FakeIpPool.call toLowercase) (.withConfig config) calls) :=
    run_invariant (FakeIpPool.Coherent config)
      (fun _ call coherent => coherent.call range.usable toLowercase call)
      (.withConfig config) calls
  refine ⟨?_, ?_, coherent.bounded⟩
  · intro domain found located
    rcases coherent.placed domain found located with ⟨count, ip_eq⟩
    refine ⟨coherent.consistent domain found located, ?_, ?_⟩
    · rw [ip_eq]
      exact FakeIpPool.isFakeIp_slotIp range count
    · intro reserved first
      rw [ip_eq]
      exact FakeIpPool.slotIp_ne_reserved range count first
  · intro first second found other firstAt secondAt same
    exact coherent.consistent.injective firstAt secondAt same

/-- The default range, as its CIDR parses. -/
def defaultRange : IpNet :=
  .v4 (.ofPrefix 0xC6120000 16)

theorem forward_coherent_default :
    FakeIpConfig.fromCidr (fun _ => .ok defaultRange) "198.18.0.0/16" = .ok {} ∧
    (run (FakeIpPool.call id) (.withConfig {})
      [.allocate "a" (.instant 0), .allocate "b" (.instant 1), .clear,
        .allocate "b" (.instant 2)]).domainToIp.size ≤ 65533 :=
  ⟨by rfl, (@forward_coherent (fun _ => .ok defaultRange) "198.18.0.0/16" {} (by rfl) id _).2.2⟩

end Corduit.Netstack.FakeIp
