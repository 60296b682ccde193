import FunnyOS.Fat32.Types
import FunnyOS.Kernel.KString

/-!
# Names

The name handling of `src/kernel/fat32.c`: 8.3 names, long-name slots, short
aliases. These routines touch no global, so they are plain functions.
-/

namespace FunnyOS.Fat32

/-- The part of a `char` array before its first NUL. -/
def cString (bytes : List UInt8) : CStr := bytes.takeWhile (· != 0)

/-- `should_skip_entry`. -/
def shouldSkipEntry (e : DirectoryEntry) : Bool :=
  e.name0 == 0 || e.name0 == deletedMark || e.attributes &&& attrVolumeId != 0

/-- `format_short_name`. -/
def formatShortName (raw : List UInt8) : CStr :=
  let base := (raw.take 8).takeWhile (· != 0x20)
  let ext := raw.drop 8
  if ext.any (· != 0x20) then base ++ 0x2E :: ext.takeWhile (· != 0x20) else base

/-- `is_invalid_lfn_character`; `char` is signed, so the bytes from 0x80 on are below 0x20. -/
def isInvalidLfnCharacter (c : UInt8) : Bool :=
  c < 0x20 || 0x80 ≤ c || c == 0x22 || c == 0x2A || c == 0x2F || c == 0x3A || c == 0x3C
    || c == 0x3E || c == 0x3F || c == 0x5C || c == 0x7C

/-- `validate_long_name`; the length it stores is `name.length`. -/
def validateLongName (name : CStr) : Bool :=
  name != [] && name != [0x2E] && name != [0x2E, 0x2E]
    && name.length < nameCapacity && name.all (fun c => !isInvalidLfnCharacter c)
    && name.getLast? != some 0x20 && name.getLast? != some 0x2E

/-- `name_equals_ignore_case`. -/
def nameEqualsIgnoreCase (lhs rhs : CStr) : Bool := lhs.map kToupper == rhs.map kToupper

/-- `short_name_checksum`. -/
def shortNameChecksum (name : List UInt8) : UInt8 :=
  name.foldl (fun (sum c : UInt8) => (if sum &&& 1 != 0 then (0x80 : UInt8) else 0) + (sum >>> 1) + c) 0

/-! ## Long names -/

/-- `LfnState`. -/
structure LfnState where
  active : Bool
  valid : Bool
  checksum : UInt8
  expectedOrder : UInt8
  name : Nat → UInt8

/-- `lfn_state_reset`. -/
def lfnStateReset (state : LfnState) : LfnState :=
  { active := false, valid := false, checksum := 0, expectedOrder := 0,
    name := fun i => if i = 0 then 0 else state.name i }

/-- A state that a scanning loop starts from: `lfn_state_reset` of an uninitialised one. -/
def LfnState.initial : LfnState :=
  { active := false, valid := false, checksum := 0, expectedOrder := 0, name := fun _ => 0 }

/-- `decode_lfn_character`, `none` where it returns false. -/
def decodeLfnCharacter (value : Nat) : Option UInt8 :=
  if value = 0x0000 ∨ value = 0xFFFF then some 0
  else if value / 256 ≠ 0 then none
  else if isInvalidLfnCharacter (UInt8.ofNat value) then none
  else some (UInt8.ofNat value)

/-- `lfn_store_character`. -/
def lfnStoreCharacter (name : Nat → UInt8) (index : Nat) (value : UInt8) : Nat → UInt8 :=
  if index + 1 < nameCapacity then fun i => if i = index then value else name i else name

/-- `lfn_terminate_name`. -/
def lfnTerminateName (name : Nat → UInt8) : Nat → UInt8 :=
  if (List.range nameCapacity).any (fun i => name i == 0) then name
  else fun i => if i = nameCapacity - 1 then 0 else name i

/-- The three copying loops of `process_lfn_entry` over the code units from `index` on. -/
def lfnStoreUnits : List Nat → Nat → LfnState → LfnState
  | [], _, state => { state with name := lfnTerminateName state.name }
  | unit :: units, index, state =>
    match decodeLfnCharacter unit with
    | none => { state with valid := false }
    | some c =>
      lfnStoreUnits units (index + 1)
        { state with name := lfnStoreCharacter state.name index c }

/-- `process_lfn_entry`. -/
def processLfnEntry (e : DirectoryEntry) (state : LfnState) : LfnState :=
  let order := e.name0 &&& lfnEntryMask
  let store (state : LfnState) := lfnStoreUnits e.lfnUnits ((order.toNat - 1) * 13) state
  if e.name0 &&& lfnLast != 0 then
    if order = 0 then lfnStateReset state
    else store { active := true, valid := true, checksum := e.lfnChecksum,
                 expectedOrder := order, name := fun _ => 0 }
  else if !state.active || !state.valid || e.lfnChecksum != state.checksum || order == 0
      || order.toNat + 1 != state.expectedOrder.toNat then lfnStateReset state
  else store { state with expectedOrder := order }

/-- The condition under which a short slot carries the long name collected in `state`. -/
def LfnState.attached (state : LfnState) (e : DirectoryEntry) : Bool :=
  state.active && state.valid && state.expectedOrder == 1
    && state.checksum == shortNameChecksum e.name

/-- `decode_directory_entry_name`. -/
def decodeDirectoryEntryName (e : DirectoryEntry) (state : LfnState) : CStr :=
  if state.attached e && state.name 0 != 0 then
    cString ((List.range nameCapacity).map state.name)
  else cString (formatShortName e.name)

/-! ## Building names -/

/-- The index of the last dot, if it separates a base from an extension. -/
def lastDotIndex (name : CStr) : Option Nat :=
  let found := (List.range name.length).foldl
    (fun acc i => if name.getD i 0 = 0x2E then some i else acc) none
  if found = some 0 ∨ found = some (name.length - 1) then none else found

/-- A name part left-justified in its field. -/
def padField (width : Nat) (part : List UInt8) : List UInt8 :=
  part ++ List.replicate (width - part.length) 0x20

/-- The copying loop of `make_short_name_if_possible`, `none` where it returns false. -/
def shortNameParts (lastDot : Option Nat) :
    CStr → Nat → List UInt8 → List UInt8 → Option (List UInt8 × List UInt8)
  | [], _, base, ext => some (base, ext)
  | c :: rest, i, base, ext =>
    if c = 0x2E then
      if lastDot = some i then shortNameParts lastDot rest (i + 1) base ext else none
    else if kIsSpace c || c == 0x2B || c == 0x2C || c == 0x3B || c == 0x3D || c == 0x5B
        || c == 0x5D then none
    else if lastDot.all (fun dot => i < dot) then
      if base.length ≥ 8 then none
      else shortNameParts lastDot rest (i + 1) (base ++ [kToupper c]) ext
    else if ext.length ≥ 3 then none
    else shortNameParts lastDot rest (i + 1) base (ext ++ [kToupper c])

/-- `make_short_name_if_possible`: the eleven bytes, `none` where it returns false. -/
def makeShortNameIfPossible (name : CStr) : Option (List UInt8) :=
  if validateLongName name then
    match shortNameParts (lastDotIndex name) name 0 [] [] with
    | some (base, ext) => if base = [] then none else some (padField 8 base ++ padField 3 ext)
    | none => none
  else none

/-- The filtering loop of `build_short_alias`: base and extension. -/
def aliasParts (lastDot : Option Nat) :
    CStr → Nat → List UInt8 → List UInt8 → List UInt8 × List UInt8
  | [], _, base, ext => (base, ext)
  | c :: rest, i, base, ext =>
    if c = 0x2E || isInvalidLfnCharacter c || kIsSpace c then
      aliasParts lastDot rest (i + 1) base ext
    else if lastDot.any (fun dot => dot < i) then
      aliasParts lastDot rest (i + 1) base
        (if ext.length < 3 then ext ++ [kToupper c] else ext)
    else
      aliasParts lastDot rest (i + 1)
        (if base.length < 8 then base ++ [kToupper c] else base) ext

/-- The `do … while` loop that writes the decimal digits of the ordinal, least significant
first, into `digits[10]`. -/
def aliasDigits : Nat → Nat → List UInt8
  | 0, _ => []
  | room + 1, ordinal =>
    UInt8.ofNat (0x30 + ordinal % 10) ::
      if ordinal / 10 = 0 then [] else aliasDigits room (ordinal / 10)

/-- `build_short_alias`: the eleven bytes, `none` if it stores behind them. The number of
base bytes kept is computed modulo 2^32, so that eight or more digits keep them all. -/
def buildShortAlias (name : CStr) (ordinal : Nat) : Option (List UInt8) :=
  let parts := aliasParts (lastDotIndex name) name 0 [] []
  let base := if parts.1 = [] then [0x46] else parts.1
  let ext := parts.2
  let digits := aliasDigits 10 ordinal
  let copyLen := min ((8 + 2 ^ 32 - (digits.length + 1)) % 2 ^ 32) base.length
  let front := base.take copyLen ++ 0x7E :: digits.reverse
  if front.length ≤ 11 then
    some ((List.range 11).map fun i =>
      if 8 ≤ i ∧ i - 8 < ext.length then ext.getD (i - 8) 0x20 else front.getD i 0x20)
  else none

/-- `lfn_entry_count_for_name`. -/
def lfnEntryCountForName (name : CStr) : Nat := (name.length + 12) / 13

/-- The code unit that `fill_lfn_name_segment` stores for one position of the name. -/
def lfnSegmentUnit (name : CStr) (sourceIndex : Nat) : Nat :=
  if sourceIndex < name.length then (name.getD sourceIndex 0).toNat
  else if sourceIndex = name.length then 0x0000 else 0xFFFF

/-- The code unit, if any, that covers a byte of a long-name slot, and which half of it. -/
def lfnUnitAt (i : Nat) : Option (Nat × Nat) :=
  if 1 ≤ i ∧ i ≤ 10 then some ((i - 1) / 2, (i - 1) % 2)
  else if 14 ≤ i ∧ i ≤ 25 then some (5 + (i - 14) / 2, (i - 14) % 2)
  else if 28 ≤ i ∧ i ≤ 31 then some (11 + (i - 28) / 2, (i - 28) % 2)
  else none

/-- One long-name slot as `build_name_entries` fills it, with `fill_lfn_name_segment`. -/
def buildLfnEntry (name : CStr) (orderByte checksum : UInt8) (offset : Nat) : DirectoryEntry :=
  ⟨fun i =>
    if i.val = 0 then orderByte else if i.val = 11 then attrLfn
    else if i.val = 13 then checksum
    else match lfnUnitAt i.val with
      | some (k, half) => leByte (lfnSegmentUnit name (offset + k)) half
      | none => 0⟩

/-- The long-name slots of `build_name_entries`, in the order in which they are written. -/
def buildLfnEntries (name : CStr) (checksum : UInt8) (count : Nat) : List DirectoryEntry :=
  (List.range count).map fun i =>
    let order := count - i
    let orderByte := UInt8.ofNat order ||| (if i = 0 then lfnLast else 0)
    buildLfnEntry name orderByte checksum ((order - 1) * 13)

/-- The short slot of `build_name_entries`. -/
def buildShortEntry (shortName : List UInt8) (attributes : UInt8) (firstCluster size : Nat) :
    DirectoryEntry :=
  (((DirectoryEntry.zero.setName shortName).setAttributes attributes).entrySetFirstCluster
    firstCluster).setSize size

end FunnyOS.Fat32
