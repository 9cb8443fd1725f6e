import Mathlib.Logic.Function.Basic
import Fiy.RhexCodec

/-!
# The files of the assets

Where `get_asset_path` puts the file of an asset, and the directories `prep_data_dir` makes for
them.
-/

namespace AssetFiles

open ByteStrings CdnServer CheckedLoops RhexCodec

/-! ## Paths -/

/-- `get_asset_path`. What `to_rhex` leaves in its buffer is a text with a zero behind it. -/
def getAssetPath (cfg : Config) (bucket : UInt8) (assetId : UInt32) : Text :=
  let bucketStr : Text := [hexDigits.getD (bucket &&& 0xF).toNat 0,
    hexDigits.getD ((bucket >>> 4) &&& 0xF).toNat 0]
  let ret := cfg.dataDir ++ lit "/"
  let ret := ret ++ bucketStr
  let ret := ret ++ lit "/"
  ret ++ written .uint32 assetId.toNat

/-- `parent_path` of a path with a name at its end: what is in front of the last slash. -/
def parentDirectory (path : Text) : Text := ((path.reverse.dropWhile (· ≠ 47)).drop 1).reverse

/-! ## Directories -/

/-- What the file system says to `prep_data_dir`. -/
structure System where
  /-- `create_directory` makes the directory. -/
  creates : Text → Bool
  /-- `exists` throws. -/
  throws : Text → Bool

/-- The paths that `prep_data_dir` goes through. -/
def bucketDirs (cfg : Config) : List Text :=
  hexDigits.flatMap fun c1 => hexDigits.map fun c2 =>
    let dir := cfg.dataDir ++ lit "/XX"
    (dir.set (dir.length - 1) c1).set (dir.length - 2) c2

/-- The loop over them, with what it returns (nothing when it throws) and what is there then. -/
def prepFrom (sys : System) : List Text → (Text → Bool) → Option Bool × (Text → Bool)
  | [], there => (some true, there)
  | dir :: dirs, there =>
    if sys.throws dir then (none, there)
    else if there dir then prepFrom sys dirs there
    else if sys.creates dir then prepFrom sys dirs (Function.update there dir true)
    else (some false, there)

/-- `prep_data_dir` -/
def prepDataDir (cfg : Config) (sys : System) (there : Text → Bool) :
    Option Bool × (Text → Bool) := prepFrom sys (bucketDirs cfg) there

/-! ## Names -/

theorem toUint32_toNat (n : UInt32) : toUint32 n.toNat = n.toNat := by
  have small := n.toNat_lt
  rw [toUint32]
  omega

theorem getD_mem_hexDigits {d : Nat} (digit : d < 16) : hexDigits.getD d 0 ∈ hexDigits := by
  have all : ∀ d < 16, hexDigits.getD d 0 ∈ hexDigits := by decide +kernel
  exact all d digit

theorem notMem_toRhexFrom {c : Byte} (other : c ∉ hexDigits) (k n : Nat) :
    c ∉ toRhexFrom k n := by
  induction k generalizing n with
  | zero => exact List.not_mem_nil
  | succ k ih =>
    have digit := getD_mem_hexDigits (Nat.mod_lt n (Nat.zero_lt_succ 15))
    rw [toRhexFrom, List.mem_cons, not_or]
    refine ⟨(ne_of_mem_of_not_mem digit other).symm, ?_⟩
    split
    · exact List.not_mem_nil
    · exact ih _

/-- Every buffer that is large enough holds the digits of the number then. -/
theorem toRhex_buffer (assetId : UInt32) (buffer : Text) (size : buffer.length = 65) :
    ∃ out, Ends encodeTurn (buffer, 0, assetId.toNat) out ∧
      cstr out = written .uint32 assetId.toNat := by
  have small : assetId.toNat < 16 ^ (15 + 1) :=
    assetId.toNat_lt.trans (by decide)
  have digits : written .uint32 assetId.toNat = toRhexFrom 16 assetId.toNat :=
    congrArg toRhex (toUint32_toNat assetId)
  have short : (toRhexFrom (15 + 1) assetId.toNat).length ≤ 16 := length_toRhexFrom small
  refine ⟨_, encode_ends small [] buffer (by omega), ?_⟩
  rw [List.nil_append, digits, cstr, List.takeWhile_append_of_pos fun c member => ?_]
  · rw [List.takeWhile_cons_of_neg (by decide), List.append_nil]
  · exact decide_eq_true (ne_of_mem_of_not_mem member (notMem_toRhexFrom (by decide) _ _))

theorem getAssetPath_eq (cfg : Config) (bucket : UInt8) (assetId : UInt32) :
    getAssetPath cfg bucket assetId = assetPath cfg bucket.toNat assetId.toNat := by
  have low : (bucket &&& 0xF).toNat = bucket.toNat % 16 := by
    rw [UInt8.toNat_and]
    exact Nat.and_two_pow_sub_one_eq_mod _ 4
  have high : ((bucket >>> 4) &&& 0xF).toNat = bucket.toNat / 16 % 16 := by
    rw [UInt8.toNat_and, UInt8.toNat_shiftRight]
    exact (Nat.and_two_pow_sub_one_eq_mod _ 4).trans (by rw [Nat.shiftRight_eq_div_pow]; rfl)
  have digits : written .uint32 assetId.toNat = toRhex assetId.toNat :=
    congrArg toRhex (toUint32_toNat assetId)
  rw [getAssetPath, assetPath, low, high, digits]

theorem parentDirectory_slash {name : Text} (plain : 47 ∉ name) (dir : Text) :
    parentDirectory (dir ++ 47 :: name) = dir := by
  have front : ∀ c ∈ name.reverse, decide (c ≠ 47) = true := fun c member =>
    decide_eq_true (ne_of_mem_of_not_mem (List.mem_reverse.mp member) plain)
  rw [parentDirectory, List.reverse_append, List.reverse_cons, List.append_assoc,
    List.dropWhile_append_of_pos front, List.singleton_append,
    List.dropWhile_cons_of_neg (by decide), List.drop_one, List.tail_cons, List.reverse_reverse]

theorem assetPath_split (cfg : Config) (b id : Nat) :
    assetPath cfg b id = (cfg.dataDir ++ 47 :: [hexDigits.getD (b % 16) 0,
      hexDigits.getD (b / 16 % 16) 0]) ++ 47 :: toRhex id := by
  simp only [assetPath, lit, List.append_assoc]
  rfl

theorem assetPath_injective (cfg : Config) {b b' id id' : Nat} (byte : b < 256) (byte' : b' < 256)
    (small : id < 4294967296) (small' : id' < 4294967296)
    (same : assetPath cfg b id = assetPath cfg b' id') : b = b' ∧ id = id' := by
  rw [assetPath_split, assetPath_split, List.append_assoc, List.append_assoc] at same
  simp only [List.append_cancel_left_eq, List.cons_append, List.nil_append, List.cons.injEq,
    true_and] at same
  obtain ⟨low, high, text⟩ := same
  have low := hexDigits_injective _ (Nat.mod_lt _ (by decide)) _ (Nat.mod_lt _ (by decide)) low
  have high := hexDigits_injective _ (Nat.mod_lt _ (by decide)) _ (Nat.mod_lt _ (by decide)) high
  exact ⟨by omega, toRhexFrom_injective (small.trans (by decide)) (small'.trans (by decide)) text⟩

/-! ## The loop -/

theorem mem_bucketDirs (cfg : Config) {lo hi : Byte} (first : lo ∈ hexDigits)
    (second : hi ∈ hexDigits) : cfg.dataDir ++ 47 :: [lo, hi] ∈ bucketDirs cfg := by
  refine List.mem_flatMap.mpr ⟨hi, second, List.mem_map.mpr ⟨lo, first, ?_⟩⟩
  -- the second character is set first
  have long : (cfg.dataDir ++ lit "/XX").length = cfg.dataDir.length + 3 := List.length_append
  have last : cfg.dataDir.length + 3 - 1 - cfg.dataDir.length = 2 := by omega
  have before : cfg.dataDir.length + 3 - 2 - cfg.dataDir.length = 1 := by omega
  simp only [long]
  rw [List.set_append_right _ _ (by omega), List.set_append_right _ _ (by omega), last, before]
  rfl

/-- A loop that comes through leaves all the directories. -/
theorem prepFrom_there (sys : System) (dirs : List Text) (there : Text → Bool)
    (done : (prepFrom sys dirs there).1 = some true) :
    (∀ dir, there dir = true → (prepFrom sys dirs there).2 dir = true) ∧
      ∀ dir ∈ dirs, (prepFrom sys dirs there).2 dir = true := by
  induction dirs generalizing there with
  | nil => exact ⟨fun _ before => before, fun _ member => nomatch member⟩
  | cons first dirs ih =>
    rw [prepFrom] at done ⊢
    split_ifs at done ⊢ with throws before creates
    · obtain ⟨kept, made⟩ := ih there done
      exact ⟨kept, List.forall_mem_cons.mpr ⟨kept first before, made⟩⟩
    · obtain ⟨kept, made⟩ := ih _ done
      refine ⟨fun dir old => kept dir ?_, List.forall_mem_cons.mpr ⟨kept first ?_, made⟩⟩
      · rw [Function.update_apply]
        split
        · rfl
        · exact old
      · exact Function.update_self ..
    · exact absurd (Option.some.inj done) Bool.false_ne_true

/-- No two assets have one file, and the directory of every file is made before. -/
theorem asset_paths_sound (cfg : Config) :
    (∀ b b' id id', getAssetPath cfg b id = getAssetPath cfg b' id' → b = b' ∧ id = id') ∧
    ∀ b id, parentDirectory (getAssetPath cfg b id) ∈ bucketDirs cfg ∧
      ∀ sys there, (prepDataDir cfg sys there).1 = some true →
        (prepDataDir cfg sys there).2 (parentDirectory (getAssetPath cfg b id)) = true := by
  constructor
  · intro b b' id id' same
    rw [getAssetPath_eq, getAssetPath_eq] at same
    obtain ⟨bucket, asset⟩ :=
      assetPath_injective cfg b.toNat_lt b'.toNat_lt id.toNat_lt id'.toNat_lt same
    exact ⟨UInt8.toNat.inj bucket, UInt32.toNat.inj asset⟩
  · intro b id
    have parent : parentDirectory (getAssetPath cfg b id) = cfg.dataDir ++
        47 :: [hexDigits.getD (b.toNat % 16) 0, hexDigits.getD (b.toNat / 16 % 16) 0] := by
      rw [getAssetPath_eq, assetPath_split]
      exact parentDirectory_slash (notMem_toRhexFrom (by decide) 16 _) _
    have listed : parentDirectory (getAssetPath cfg b id) ∈ bucketDirs cfg :=
      parent ▸ mem_bucketDirs cfg (getD_mem_hexDigits (Nat.mod_lt _ (by decide)))
        (getD_mem_hexDigits (Nat.mod_lt _ (by decide)))
    exact ⟨listed, fun sys there done => (prepFrom_there sys _ there done).2 _ listed⟩

end AssetFiles
