import Corduit.Engine.Mmdb.Walk

/-!
# Corrupt databases

Opening a database and looking an address up in it return, a value or an error,
exactly where the walks from the metadata and from the record of the address arrive
at no field whose extended type is 249 or more.  What a decode returns lies within
the database and its budgets in any case.
-/

namespace Corduit.Engine.Mmdb

open Netstack Text Transition Word

section Safety

variable {data : Blob} {offset ptrBase : Nat}

theorem decode_returns_iff :
    Checked.Returns (decode data offset ptrBase).1 ↔ TypesFit data ptrBase offset := by
  have follows := @readValue_follows data ptrBase 0 (MAX_DEPTH + 1) (Nat.zero_add _) (by decide)
    offset 0 (Nat.zero_le _)
  have tracks := follows.tracks false
  rw [judge_false] at tracks
  change Tracks data ptrBase _ 0 (decode data offset ptrBase).1 (decode data offset ptrBase).2
    at tracks
  generalize (decode data offset ptrBase).2 = state at tracks
  generalize (decode data offset ptrBase).1 = result at tracks
  have fits_of_stops (stops : Stops data ptrBase ⟨[.field false 0], offset, 0⟩) :
      TypesFit data ptrBase offset := fun walk reaches overflows =>
    stops.not_breaks ⟨walk, reaches, overflows⟩
  cases result with
  | ok found =>
      refine iff_of_true (Checked.returns_ok found) (fits_of_stops ?_)
      exact ⟨_, tracks.2.2 [], rfl, fun overflows => overflows⟩
  | error halt =>
      cases halt with
      | fails error => exact iff_of_true (.fails error) (fits_of_stops (tracks []))
      | panics =>
          refine iff_of_false Checked.not_returns_panics fun fits => ?_
          rcases tracks [] with ⟨last, reaches, overflows⟩
          exact fits last reaches overflows
      | unending => exact tracks.elim

theorem metadataStart_returns (data : Blob) : Checked.Returns (metadataStart data) := by
  have short := data.short
  have here : data.bytes.length - METADATA_SEARCH_WINDOW ≤ data.bytes.length := Nat.sub_le _ _
  have few : MAGIC.length ≤ 2 ^ 10 := by decide
  rw [metadataStart]
  generalize data.bytes.length - METADATA_SEARCH_WINDOW = searchFrom at here ⊢
  rw [Checked.range_of_le here (Nat.le_refl _)]
  refine Checked.returns_bind (Checked.returns_ok _) fun window found => ?_
  refine Checked.returns_bind (Checked.returns_okOr _ _) fun place marked => ?_
  have inside : place < window.length + 1 := by
    rw [Checked.okOr_eq_ok_iff, lastMarker] at marked
    have member := List.mem_of_find?_eq_some marked
    rw [List.mem_reverse, List.mem_range] at member
    omega
  have small : searchFrom + window.length ≤ data.bytes.length := by
    cases found
    rw [slice, List.length_take, List.length_drop]
    omega
  refine Checked.returns_bind (Checked.returns_add (by omega)) fun marker added => ?_
  have sum : (Checked.add 64 searchFrom place : Except (Halt String) Nat) = .ok _ :=
    Checked.add_of_lt (by omega)
  cases sum.symm.trans added
  exact Checked.returns_add (by omega)

theorem readMetadata_returns (metaStart : Nat) (entries : List (String × DataValue)) :
    Checked.Returns (readMetadata metaStart entries) := by
  rw [readMetadata]
  dsimp only
  split
  · exact .fails _
  · split
    · exact .fails _
    · split
      · exact .fails _
      · rename_i small
        have separator : DATA_SECTION_SEPARATOR ≤ 2 ^ 10 := by decide
        refine Checked.returns_bind (Checked.returns_add (by omega)) fun dataStart _ => ?_
        split
        · exact .fails _
        · exact Checked.returns_ok _

theorem openReader_returns_iff : Checked.Returns (openReader data) ↔
    (28 ≤ data.bytes.length → ∀ metaStart, metadataStart data = .ok metaStart →
      TypesFit data metaStart metaStart) := by
  rw [openReader]
  by_cases short : data.bytes.length < 28
  · rw [if_pos short]
    exact iff_of_true (.fails _) fun long => absurd short (Nat.not_lt_of_le long)
  rw [if_neg short]
  have long := Nat.le_of_not_lt short
  have started := metadataStart_returns data
  cases located : metadataStart data with
  | error halt =>
      rw [located] at started
      refine iff_of_true ((Checked.returns_error_bind halt _).mpr started) ?_
      intro _ metaStart found
      cases found
  | ok metaStart =>
      change Checked.Returns (openWith data metaStart (decode data metaStart metaStart).1) ↔ _
      have decoded := @decode_returns_iff data metaStart metaStart
      have opened : Checked.Returns (openWith data metaStart (decode data metaStart metaStart).1) ↔
          Checked.Returns (decode data metaStart metaStart).1 := by
        generalize (decode data metaStart metaStart).1 = result
        cases result with
        | error halt =>
            cases halt with
            | fails error => exact iff_of_true (.fails _) (.fails _)
            | panics => exact iff_of_false Checked.not_returns_panics Checked.not_returns_panics
            | unending =>
                exact iff_of_false Checked.not_returns_unending Checked.not_returns_unending
        | ok found =>
            rcases found with ⟨value, next⟩
            cases value with
            | map entries =>
                have returns := readMetadata_returns metaStart entries
                refine iff_of_true ?_ (Checked.returns_ok _)
                rw [openWith]
                generalize readMetadata metaStart entries = read at returns
                cases returns with
                | ok _ => exact Checked.returns_ok _
                | fails error => exact .fails error
            | _ => exact iff_of_true (.fails _) (Checked.returns_ok _)
      rw [opened, decoded]
      constructor
      · intro fits _ other found
        cases found
        exact fits
      · intro fits
        exact fits long metaStart rfl

section Lookup

variable (reader : MmdbReader)

theorem nodeByte_returns {base place : Nat} (near : base + place < 2 ^ 64) :
    Checked.Returns (reader.nodeByte base place) := by
  rw [MmdbReader.nodeByte]
  refine Checked.returns_bind (Checked.returns_add near) fun place _ => ?_
  exact Checked.returns_bind (Checked.returns_okOr _ _) fun byte _ => Checked.returns_ok _

/-- No node is near the end of what a `usize` holds. -/
theorem readRecord_returns (node : BitVec 32) (bit : Bool) :
    Checked.Returns (reader.readRecord node bit) := by
  have far : node.toNat * reader.info.nodeByteSize.toNat ≤ (2 ^ 32 - 1) * (2 ^ 32 - 1) :=
    Nat.mul_le_mul (Nat.le_sub_one_of_lt node.isLt)
      (Nat.le_sub_one_of_lt reader.info.nodeByteSize.isLt)
  have near (place : Nat) (small : place < 8) :
      Checked.Returns (reader.nodeByte (node.toNat * reader.info.nodeByteSize.toNat) place) :=
    nodeByte_returns reader (by omega)
  have choose (first second : Nat) (small : first < 8 ∧ second < 8) :
      Checked.Returns (reader.nodeByte (node.toNat * reader.info.nodeByteSize.toNat)
        (if bit then first else second)) := by
    apply near
    split
    · exact small.1
    · exact small.2
  rw [MmdbReader.readRecord]
  split
  · exact .fails _
  split
  · refine Checked.returns_bind (choose 3 0 (by decide)) fun b0 _ => ?_
    refine Checked.returns_bind (choose 4 1 (by decide)) fun b1 _ => ?_
    exact Checked.returns_bind (choose 5 2 (by decide)) fun b2 _ => Checked.returns_ok _
  · refine Checked.returns_bind (near 3 (by decide)) fun middle _ => ?_
    refine Checked.returns_bind (choose 4 0 (by decide)) fun b0 _ => ?_
    refine Checked.returns_bind (choose 5 1 (by decide)) fun b1 _ => ?_
    exact Checked.returns_bind (choose 6 2 (by decide)) fun b2 _ => Checked.returns_ok _
  · refine Checked.returns_bind (choose 4 0 (by decide)) fun b0 _ => ?_
    refine Checked.returns_bind (choose 5 1 (by decide)) fun b1 _ => ?_
    refine Checked.returns_bind (choose 6 2 (by decide)) fun b2 _ => ?_
    exact Checked.returns_bind (choose 7 3 (by decide)) fun b3 _ => Checked.returns_ok _
  · exact .fails _

theorem lookupBits_returns (bits : List Bool) (node : BitVec 32) :
    Checked.Returns (reader.lookupBits bits node) := by
  induction bits generalizing node with
  | nil => exact .fails _
  | cons bit bits ih =>
      rw [MmdbReader.lookupBits]
      refine Checked.returns_bind (readRecord_returns reader node bit) fun record _ => ?_
      have small := record.isLt
      have size := reader.info.searchTreeSize.isLt
      split
      · exact ih record
      · split
        · exact Checked.returns_add (by omega)
        · exact .fails _

theorem lookup_returns (ip : IpAddr) : Checked.Returns (reader.lookup ip) := by
  cases ip with
  | v4 addr =>
      rw [MmdbReader.lookup]
      split
      · exact lookupBits_returns reader _ _
      · exact lookupBits_returns reader _ _
  | v6 addr =>
      rw [MmdbReader.lookup]
      split
      · exact lookupBits_returns reader _ _
      · exact .fails _

theorem lookupCountry_returns_iff (ip : IpAddr) : Checked.Returns (reader.lookupCountry ip) ↔
    ∀ dataOff, reader.lookup ip = .ok dataOff →
      TypesFit reader.data reader.dataStart dataOff := by
  rw [MmdbReader.lookupCountry]
  have found := lookup_returns reader ip
  cases located : reader.lookup ip with
  | error halt =>
      rw [located] at found
      refine iff_of_true ((Checked.returns_error_bind halt _).mpr found) ?_
      intro dataOff found
      cases found
  | ok dataOff =>
      have decoded := @decode_returns_iff reader.data dataOff reader.dataStart
      have same := @Checked.returns_bind_iff _ _ _ (decode reader.data dataOff reader.dataStart).1 _
        fun found => Checked.returns_okOr () (countryOf found.1)
      refine same.trans (decoded.trans ⟨?_, fun fits => fits dataOff rfl⟩)
      intro fits other found
      cases found
      exact fits

end Lookup

/-- What is expected of every database: opening it and looking up addresses return,
and a decode, from wherever, keeps to its budgets and goes forward in the database. -/
structure Safe (data : Blob) : Prop where
  opens : Checked.Returns (openReader data)
  looksUp : ∀ reader, openReader data = .ok reader → ∀ ip,
    Checked.Returns (reader.lookupCountry ip)
  bounded : ∀ ptrBase offset depth values, depth ≤ MAX_DEPTH → values ≤ MAX_DECODED_VALUES →
    let decoded := readValue data ptrBase (MAX_DEPTH + 1 - depth) offset ⟨depth, values⟩
    decoded.1 ≠ .error .unending ∧ decoded.2.values ≤ MAX_DECODED_VALUES ∧
      ∀ value next, decoded.1 = .ok (value, next) → offset < next ∧ next ≤ data.bytes.length

/-- The walks over the metadata and over the records of addresses arrive at no field
whose type does not fit a byte. -/
structure Fits (data : Blob) : Prop where
  metadata : 28 ≤ data.bytes.length → ∀ metaStart, metadataStart data = .ok metaStart →
    TypesFit data metaStart metaStart
  records : ∀ reader, openReader data = .ok reader → ∀ ip dataOff,
    reader.lookup ip = .ok dataOff → TypesFit reader.data reader.dataStart dataOff

theorem readValue_bounded (data : Blob) (ptrBase offset depth values : Nat)
    (shallow : depth ≤ MAX_DEPTH) (few : values ≤ MAX_DECODED_VALUES) :
    let decoded := readValue data ptrBase (MAX_DEPTH + 1 - depth) offset ⟨depth, values⟩
    decoded.1 ≠ .error .unending ∧ decoded.2.values ≤ MAX_DECODED_VALUES ∧
      ∀ value next, decoded.1 = .ok (value, next) → offset < next ∧ next ≤ data.bytes.length := by
  have follows := @readValue_follows data ptrBase depth (MAX_DEPTH + 1 - depth) (by omega)
    (by omega) offset values few
  intro decoded
  rcases follows with ⟨budget, _, forward, tracks⟩
  have tracks := tracks false
  rw [judge_false] at tracks
  change Tracks data ptrBase _ depth decoded.1 decoded.2 at tracks
  refine ⟨fun endless => ?_, budget.2, fun value next done => ⟨forward value next done, ?_⟩⟩
  · rw [endless] at tracks
    exact tracks
  · rw [done] at tracks
    exact tracks.2.1

/-- A database is safe exactly where the walks over it meet types that fit a byte. -/
theorem safe_iff_fits (data : Blob) : Safe data ↔ Fits data := by
  constructor
  · intro safe
    refine ⟨openReader_returns_iff.mp safe.opens, fun reader opened ip => ?_⟩
    exact (lookupCountry_returns_iff reader ip).mp (safe.looksUp reader opened ip)
  · intro fits
    refine ⟨openReader_returns_iff.mpr fits.metadata, fun reader opened ip => ?_,
      readValue_bounded data⟩
    exact (lookupCountry_returns_iff reader ip).mpr (fits.records reader opened ip)

/-- Sixteen zeros, the marker, and a field with the extended type 255. -/
def wideType : Blob where
  bytes := List.replicate 16 0 ++ MAGIC ++ [0x00, 0xFF]
  short := by decide

/-- Opening it panics. -/
theorem wideType_unsafe : ¬Safe wideType := by
  have panics : ¬Checked.Returns (openReader wideType) := by decide +kernel
  exact fun safe => panics safe.opens

end Safety

end Corduit.Engine.Mmdb
