import FunnyOS.Devices.Pci

/-!
# The functions that the kernel sees

The ports give the configuration of the function that is asked for, byte by byte, so that
`pci_enumerate` goes along the functions that there are, in the order of their addresses, up to the
first one that its visitor does not go on from.
-/

namespace FunnyOS.Devices

open Boot (PciAddress)
open Prog

/-! ## The address port -/

/-- The bits of a number below a power of two. -/
theorem getElem_of_lt {x : UInt8} {n i : Nat} (h : x.toNat < 2 ^ n) (hi : i < 8) (hn : n ≤ i) :
    x.toBitVec[i] = false := by
  rw [← BitVec.getLsbD_eq_getElem, BitVec.getLsbD]
  exact Nat.testBit_lt_two_pow (h.trans_le (Nat.pow_le_pow_right (by omega) hn))

section

variable {address : PciAddress} {offset : UInt8} {s s' : PciState}

theorem pciConfigAddress_enable : pciConfigAddress address offset &&& 0x80000000 ≠ 0 := by
  intro h
  have hbit := congrArg (fun x : UInt32 => x.toBitVec[31]) h
  simp [pciConfigAddress] at hbit

/-- The address port selects the function that it was told. -/
theorem selected_pciConfigAddress (hd : address.device < pciMaxDeviceCount)
    (hf : address.function < pciMaxFunctionCount) (h : s.latch = pciConfigAddress address offset) :
    s.selected = address := by
  have hdevice : ∀ i (hi : i < 8), 5 ≤ i → address.device.toBitVec[i] = false :=
    fun i hi => getElem_of_lt hd hi
  have hfunction : ∀ i (hi : i < 8), 3 ≤ i → address.function.toBitVec[i] = false :=
    fun i hi => getElem_of_lt hf hi
  have hbus : ((pciConfigAddress address offset) >>> 16).toUInt8 = address.bus := by
    apply UInt8.toBitVec_inj.mp
    ext i hi
    interval_cases i <;> simp [pciConfigAddress, hdevice]
  have hdev : ((pciConfigAddress address offset >>> 11) &&& 0x1F).toUInt8 = address.device := by
    apply UInt8.toBitVec_inj.mp
    ext i hi
    interval_cases i <;> simp [pciConfigAddress, hdevice, hfunction]
  have hfn : ((pciConfigAddress address offset >>> 8) &&& 7).toUInt8 = address.function := by
    apply UInt8.toBitVec_inj.mp
    ext i hi
    interval_cases i <;> simp [pciConfigAddress, hfunction]
  rw [PciState.selected, h, hbus, hdev, hfn]

theorem register_pciConfigAddress (h : s.latch = pciConfigAddress address offset) :
    s.register = offset &&& 0xFC := by
  rw [PciState.register, h]
  apply UInt8.toBitVec_inj.mp
  ext i hi
  interval_cases i <;> simp [pciConfigAddress]

/-- The two ports together select a byte. -/
theorem register_add (offset : UInt8) : (offset &&& 0xFC) + (offset &&& 3) = offset := by
  apply UInt8.toBitVec_inj.mp
  have hdisjoint : (offset &&& 0xFC).toBitVec &&& (offset &&& 3).toBitVec = 0 := by
    ext i hi
    interval_cases i <;> simp
  rw [UInt8.toBitVec_add, BitVec.add_eq_or_of_and_eq_zero _ _ hdisjoint]
  ext i hi
  interval_cases i <;> simp

theorem dataByte_of_latch (hd : address.device < pciMaxDeviceCount)
    (hf : address.function < pciMaxFunctionCount) (h : s.latch = pciConfigAddress address offset)
    (k : UInt8) : s.dataByte k = s.config address ((offset &&& 0xFC) + k) := by
  rw [PciState.dataByte, if_neg (h ▸ pciConfigAddress_enable), selected_pciConfigAddress hd hf h,
    register_pciConfigAddress h]

end

/-! ## Reading -/

/-- The program returns `a`, and nothing but the address port changes. -/
def Looks {α : Type} (x : Pci α) (s : PciState) (a : α) : Prop :=
  ∃ latch, x s = .ok a { s with latch := latch }

section

variable {α β : Type} {x : Pci α} {f : α → Pci β} {s : PciState} {a : α} {b : β}
  {address : PciAddress} {offset : UInt8}

theorem Looks.pure : Looks (pure a : Pci α) s a := ⟨s.latch, rfl⟩

theorem Looks.bind (h : Looks x s a) (hf : ∀ latch, Looks (f a) { s with latch := latch } b) :
    Looks (x >>= f) s b := by
  obtain ⟨latch, hx⟩ := h
  obtain ⟨latch', hb⟩ := hf latch
  exact ⟨latch', (bind_of_ok hx).trans hb⟩

theorem Looks.get_bind {f : PciState → Pci β} (h : Looks (f s) s b) : Looks (get >>= f) s b := h

theorem Looks.ite {c : Prop} [Decidable c] {y : Pci α} (hx : c → Looks x s a)
    (hy : ¬ c → Looks y s a) : Looks (if c then x else y) s a := by
  split
  · next h => exact hx h
  · next h => exact hy h

/-- The two bytes of a configuration from an even offset on. -/
def PciConfig.word (config : PciConfig) (address : PciAddress) (offset : UInt8) : UInt16 :=
  (config address offset).toUInt16 ||| ((config address (offset + 1)).toUInt16 <<< 8)

/-- `pci_read_config8` gives the byte. -/
theorem pciReadConfig8_looks (ha : s.available = true) (hd : address.device < pciMaxDeviceCount)
    (hf : address.function < pciMaxFunctionCount) :
    Looks (pciReadConfig8 address offset) s (s.config address offset) := by
  refine Looks.get_bind (Looks.ite (fun h => by simp [ha] at h) fun _ => ?_)
  refine ⟨pciConfigAddress address offset, ?_⟩
  change Outcome.ok (PciState.dataByte { s with latch := pciConfigAddress address offset }
    (offset &&& 3)) _ = _
  rw [dataByte_of_latch hd hf rfl, register_add]

/-- `pci_read_config16` gives the two bytes from an even offset on. -/
theorem pciReadConfig16_looks (ha : s.available = true) (hd : address.device < pciMaxDeviceCount)
    (hf : address.function < pciMaxFunctionCount) (hoffset : offset &&& 0xFE = offset) :
    Looks (pciReadConfig16 address offset) s (s.config.word address offset) := by
  refine Looks.get_bind (Looks.ite (fun h => by simp [ha] at h) fun _ => ?_)
  refine ⟨pciConfigAddress address offset, ?_⟩
  have heven : (offset &&& 0xFC) + (offset &&& 2) = offset := by
    refine Eq.trans ?_ hoffset
    have hdisjoint : (offset &&& 0xFC).toBitVec &&& (offset &&& 2).toBitVec = 0 := by
      ext i hi
      interval_cases i <;> simp
    apply UInt8.toBitVec_inj.mp
    rw [UInt8.toBitVec_add, BitVec.add_eq_or_of_and_eq_zero _ _ hdisjoint]
    ext i hi
    interval_cases i <;> simp
  change Outcome.ok ((PciState.dataByte { s with latch := pciConfigAddress address offset }
    (offset &&& 2)).toUInt16 ||| ((PciState.dataByte
      { s with latch := pciConfigAddress address offset } ((offset &&& 2) + 1)).toUInt16 <<< 8)) _
    = _
  rw [dataByte_of_latch hd hf rfl, dataByte_of_latch hd hf rfl, ← UInt8.add_assoc, heven]
  rfl

/-! ## The functions there are -/

/-- The function at an address, where there is one. -/
def PciConfig.deviceInfo (config : PciConfig) (address : PciAddress) : Option PciDeviceInfo :=
  if address.device ≥ pciMaxDeviceCount ∨ address.function ≥ pciMaxFunctionCount then none
  else if config.word address 0x00 = pciInvalidVendorId then none
  else some ⟨address, config.word address 0x00, config.word address 0x02, config address 0x08,
    config address 0x09, config address 0x0A, config address 0x0B, config address 0x0E⟩

/-- `pci_read_device_info`. -/
theorem pciReadDeviceInfo_looks (ha : s.available = true) :
    Looks (pciReadDeviceInfo address) s (s.config.deviceInfo address) := by
  unfold pciReadDeviceInfo PciConfig.deviceInfo
  refine Looks.get_bind (Looks.ite (fun h => by simp [ha] at h) fun _ => ?_)
  split
  · exact Looks.pure
  · next hin =>
    simp only [ge_iff_le, not_or, UInt8.not_le] at hin
    obtain ⟨hd, hf⟩ := hin
    refine Looks.bind (pciReadConfig16_looks ha hd hf rfl) fun _ => ?_
    refine Looks.ite (fun h => ?_) fun h => ?_
    · rw [if_pos h]
      exact Looks.pure
    · rw [if_neg h]
      refine Looks.bind (pciReadConfig16_looks ha hd hf rfl) fun _ => ?_
      refine Looks.bind (pciReadConfig8_looks ha hd hf) fun _ => ?_
      refine Looks.bind (pciReadConfig8_looks ha hd hf) fun _ => ?_
      refine Looks.bind (pciReadConfig8_looks ha hd hf) fun _ => ?_
      refine Looks.bind (pciReadConfig8_looks ha hd hf) fun _ => ?_
      refine Looks.bind (pciReadConfig8_looks ha hd hf) fun _ => ?_
      exact Looks.pure

end

/-- Go on where the visitor goes on. -/
def andThen {κ : Type} (r : κ × Bool) (f : κ → κ × Bool) : κ × Bool := if r.2 then f r.1 else r

/-- Visit the elements of a list up to the first one from which the visitor does not go on. -/
def visitAll {α κ : Type} (visit : α → κ → κ × Bool) : List α → κ → κ × Bool
  | [], context => (context, true)
  | a :: l, context => andThen (visit a context) (visitAll visit l)

section

variable {α κ : Type} {visit : α → κ → κ × Bool} {l l' : List α} {context : κ} {r : κ × Bool}
  {f g : κ → κ × Bool}

theorem andThen_of_true (h : r.2 = true) : andThen r f = f r.1 := if_pos h

theorem andThen_of_false (h : ¬ r.2 = true) : andThen r f = r := if_neg h

theorem andThen_assoc : andThen (andThen r f) g = andThen r fun c => andThen (f c) g := by
  by_cases h : r.2 = true
  · rw [andThen_of_true h, andThen_of_true h]
  · rw [andThen_of_false h, andThen_of_false h, andThen_of_false h]

theorem visitAll_append : visitAll visit (l ++ l') context =
    andThen (visitAll visit l context) (visitAll visit l') := by
  induction l generalizing context with
  | nil => rfl
  | cons a l ih =>
    rw [List.cons_append, visitAll, visitAll, andThen_assoc]
    exact congrArg (andThen _) (funext fun c => ih)

end

namespace PciConfig

variable (config : PciConfig)

/-- The functions of a device that has several. -/
def laterFunctions (bus device : UInt8) : List PciDeviceInfo :=
  [1, 2, 3, 4, 5, 6, 7].filterMap fun function => config.deviceInfo ⟨bus, device, function⟩

/-- The functions of a device. -/
def deviceFunctions (bus device : UInt8) : List PciDeviceInfo :=
  match config.deviceInfo ⟨bus, device, 0⟩ with
  | none => []
  | some info =>
    info :: if info.headerType &&& 0x80 ≠ 0 then config.laterFunctions bus device else []

variable {config} in
theorem deviceFunctions_of_none {bus device : UInt8}
    (h : config.deviceInfo ⟨bus, device, 0⟩ = none) : config.deviceFunctions bus device = [] := by
  rw [deviceFunctions, h]

variable {config} in
theorem deviceFunctions_of_some {bus device : UInt8} {info : PciDeviceInfo}
    (h : config.deviceInfo ⟨bus, device, 0⟩ = some info) :
    config.deviceFunctions bus device = info ::
      (if info.headerType &&& 0x80 ≠ 0 then [1, 2, 3, 4, 5, 6, 7] else []).filterMap
        fun function => config.deviceInfo ⟨bus, device, function⟩ := by
  rw [deviceFunctions, h]
  simp only
  split <;> rfl

/-- The functions on a bus. -/
def busFunctions (bus : UInt8) : List PciDeviceInfo :=
  ((List.range 32).map UInt8.ofNat).flatMap (config.deviceFunctions bus)

/-- All functions, in the order of their addresses. -/
def functions : List PciDeviceInfo :=
  ((List.range 256).map UInt8.ofNat).flatMap config.busFunctions

end PciConfig

section

variable {κ : Type} {visit : PciDeviceInfo → κ → κ × Bool} {s : PciState} {context : κ}
  {bus device : UInt8}

/-- A visitor that does not go on. -/
theorem Looks.stop {r : κ × Bool} (h : ¬ r.2 = true) : Looks (Pure.pure (r.1, false)) s r := by
  rw [show (r.1, false) = r from Prod.ext rfl (Bool.eq_false_iff.mpr h).symm]
  exact Looks.pure

/-- Either the visitor goes on, or this is the end. -/
theorem Looks.andThen {r : κ × Bool} {x : Pci (κ × Bool)} {f : κ → κ × Bool}
    (h : r.2 = true → Looks x s (f r.1)) :
    Looks (if r.2 then x else Pure.pure (r.1, false)) s (andThen r f) := by
  refine Looks.ite (fun hmore => ?_) fun hmore => ?_
  · rw [andThen_of_true hmore]
    exact h hmore
  · rw [andThen_of_false hmore]
    exact Looks.stop hmore

theorem pciVisitFunctions_looks (ha : s.available = true) (functions : List UInt8) :
    Looks (pciVisitFunctions visit bus device functions context) s
      (visitAll visit
        (functions.filterMap fun function => s.config.deviceInfo ⟨bus, device, function⟩)
        context) := by
  induction functions generalizing s context with
  | nil => exact Looks.pure
  | cons function rest ih =>
    refine Looks.bind (pciReadDeviceInfo_looks ha) fun latch => ?_
    rw [List.filterMap_cons]
    cases hinfo : s.config.deviceInfo ⟨bus, device, function⟩ with
    | none => exact ih ha
    | some info => exact Looks.andThen fun _ => ih ha

theorem pciVisitDevices_looks (ha : s.available = true) (devices : List UInt8) :
    Looks (pciVisitDevices visit bus devices context) s
      (visitAll visit (devices.flatMap (s.config.deviceFunctions bus)) context) := by
  induction devices generalizing s context with
  | nil => exact Looks.pure
  | cons device rest ih =>
    refine Looks.bind (pciReadDeviceInfo_looks ha) fun latch => ?_
    rw [List.flatMap_cons]
    cases hinfo : s.config.deviceInfo ⟨bus, device, 0⟩ with
    | none =>
      rw [PciConfig.deviceFunctions_of_none hinfo]
      exact ih ha
    | some info =>
      rw [PciConfig.deviceFunctions_of_some hinfo, List.cons_append, visitAll]
      refine Looks.ite (fun h => ?_) fun h => ?_
      · rw [andThen_of_false (by simpa using h)]
        exact Looks.stop (by simpa using h)
      · rw [andThen_of_true (by simpa using h), visitAll_append]
        refine Looks.bind (pciVisitFunctions_looks ?_ _) fun latch => ?_
        · exact ha
        · exact Looks.andThen fun _ => ih ha

theorem pciVisitBuses_looks (ha : s.available = true) (buses : List UInt8) :
    Looks (pciVisitBuses visit buses context) s
      (visitAll visit (buses.flatMap s.config.busFunctions) context).1 := by
  induction buses generalizing s context with
  | nil => exact Looks.pure
  | cons bus rest ih =>
    refine Looks.bind (pciVisitDevices_looks ha _) fun latch => ?_
    rw [List.flatMap_cons, visitAll_append]
    refine Looks.ite (fun h => ?_) fun h => ?_
    · rw [PciConfig.busFunctions, andThen_of_true h]
      exact ih ha
    · rw [PciConfig.busFunctions, andThen_of_false h]
      exact Looks.pure

end

/-! ## The order of the functions -/

/-- The place of an address in the configuration space. -/
def place (address : PciAddress) : Nat :=
  address.bus.toNat * 256 + address.device.toNat * 8 + address.function.toNat

/-- A function that is there, and that `pci_enumerate` looks for: the first one of its device, or
the first one says that there are others. -/
def PciConfig.Present (config : PciConfig) (info : PciDeviceInfo) : Prop :=
  config.deviceInfo info.address = some info ∧
    (info.address.function = 0 ∨ ∃ first,
      config.deviceInfo ⟨info.address.bus, info.address.device, 0⟩ = some first ∧
      first.headerType &&& 0x80 ≠ 0)

section

variable {config : PciConfig} {info info' : PciDeviceInfo} {address : PciAddress}
  {bus device : UInt8}

theorem PciConfig.deviceInfo_eq_some (h : config.deviceInfo address = some info) :
    info.address = address ∧ address.device.toNat < 32 ∧ address.function.toNat < 8 := by
  unfold PciConfig.deviceInfo at h
  split at h
  · cases h
  · next hin =>
    simp only [ge_iff_le, not_or, UInt8.not_le] at hin
    split at h
    · cases h
    · exact ⟨(Option.some.inj h) ▸ rfl, hin.1, hin.2⟩

theorem PciConfig.mem_deviceFunctions : info ∈ config.deviceFunctions bus device ↔
    info.address.bus = bus ∧ info.address.device = device ∧ config.Present info := by
  have hnumbers : ∀ f : UInt8, f ∈ [1, 2, 3, 4, 5, 6, 7] ↔ f ≠ 0 ∧ f.toNat < 8 := by
    intro f
    constructor
    · simp only [List.mem_cons, List.not_mem_nil, or_false]
      rintro (rfl | rfl | rfl | rfl | rfl | rfl | rfl) <;> decide
    · rintro ⟨hne, hlt⟩
      have hne' : 0 < f.toNat := Nat.pos_of_ne_zero fun h => hne (UInt8.toNat_inj.mp h)
      have hf := UInt8.ofNat_toNat (x := f)
      generalize f.toNat = m at hf hne' hlt
      subst hf
      interval_cases m <;> simp
  cases hfirst : config.deviceInfo ⟨bus, device, 0⟩ with
  | none =>
    rw [deviceFunctions_of_none hfirst]
    refine ⟨fun h => absurd h List.not_mem_nil, ?_⟩
    rintro ⟨rfl, rfl, hinfo, hzero | ⟨first, hsome, -⟩⟩
    · rw [show info.address = ⟨info.address.bus, info.address.device, 0⟩ from hzero ▸ rfl,
        hfirst] at hinfo
      cases hinfo
    · rw [hfirst] at hsome
      cases hsome
  | some first =>
    rw [deviceFunctions_of_some hfirst, List.mem_cons, List.mem_filterMap]
    constructor
    · rintro (rfl | ⟨function, hmem, hinfo⟩)
      · obtain ⟨haddress, -⟩ := deviceInfo_eq_some hfirst
        rw [haddress]
        exact ⟨rfl, rfl, haddress ▸ hfirst, .inl (haddress ▸ rfl)⟩
      · obtain ⟨haddress, -⟩ := deviceInfo_eq_some hinfo
        split at hmem
        · next hmany =>
          rw [Present, haddress]
          exact ⟨rfl, rfl, hinfo, .inr ⟨first, hfirst, hmany⟩⟩
        · cases hmem
    · rintro ⟨rfl, rfl, hinfo, hzero | ⟨first', hsome, hmany⟩⟩
      · rw [show info.address = ⟨info.address.bus, info.address.device, 0⟩ from hzero ▸ rfl,
          hfirst] at hinfo
        exact .inl (Option.some.inj hinfo).symm
      · obtain rfl := Option.some.inj (hfirst.symm.trans hsome)
        by_cases hzero : info.address.function = 0
        · rw [show info.address = ⟨info.address.bus, info.address.device, 0⟩ from hzero ▸ rfl,
            hfirst] at hinfo
          exact .inl (Option.some.inj hinfo).symm
        · refine .inr ⟨info.address.function, ?_, hinfo⟩
          rw [if_pos hmany]
          exact (hnumbers _).mpr ⟨hzero, (deviceInfo_eq_some hinfo).2.2⟩

theorem PciConfig.mem_busFunctions : info ∈ config.busFunctions bus ↔
    info.address.bus = bus ∧ config.Present info := by
  simp only [busFunctions, List.mem_flatMap, List.mem_map, List.mem_range, mem_deviceFunctions]
  constructor
  · rintro ⟨device, -, hbus, -, hpresent⟩
    exact ⟨hbus, hpresent⟩
  · rintro ⟨hbus, hpresent⟩
    refine ⟨info.address.device, ⟨_, (deviceInfo_eq_some hpresent.1).2.1, UInt8.ofNat_toNat⟩, hbus,
      rfl, hpresent⟩

theorem PciConfig.mem_functions : info ∈ config.functions ↔ config.Present info := by
  simp only [functions, List.mem_flatMap, List.mem_map, List.mem_range, mem_busFunctions]
  constructor
  · rintro ⟨bus, -, -, hpresent⟩
    exact hpresent
  · intro hpresent
    exact ⟨info.address.bus, ⟨_, info.address.bus.toNat_lt, UInt8.ofNat_toNat⟩, rfl, hpresent⟩

/-- One function before another. -/
def Before (info info' : PciDeviceInfo) : Prop := place info.address < place info'.address

theorem PciConfig.deviceFunctions_pairwise :
    (config.deviceFunctions bus device).Pairwise Before := by
  have hplace : ∀ {function : UInt8} {info : PciDeviceInfo},
      config.deviceInfo ⟨bus, device, function⟩ = some info →
      place info.address = bus.toNat * 256 + device.toNat * 8 + function.toNat := by
    intro function info h
    rw [(deviceInfo_eq_some h).1, place]
  cases hfirst : config.deviceInfo ⟨bus, device, 0⟩ with
  | none =>
    rw [deviceFunctions_of_none hfirst]
    exact List.Pairwise.nil
  | some first =>
    rw [deviceFunctions_of_some hfirst]
    have hnumbers : (if first.headerType &&& 0x80 ≠ 0 then [1, 2, 3, 4, 5, 6, 7]
        else ([] : List UInt8)).Pairwise (fun f f' => f.toNat < f'.toNat) := by
      split <;> decide
    refine List.pairwise_cons.mpr ⟨fun info hmem => ?_, ?_⟩
    · obtain ⟨function, hfunction, hinfo⟩ := List.mem_filterMap.mp hmem
      have hpos : 0 < function.toNat := by
        split at hfunction
        · simp only [List.mem_cons, List.not_mem_nil, or_false] at hfunction
          rcases hfunction with rfl | rfl | rfl | rfl | rfl | rfl | rfl <;> decide
        · cases hfunction
      rw [Before, hplace hfirst, hplace hinfo, show (0 : UInt8).toNat = 0 from rfl]
      omega
    · refine List.Pairwise.filterMap _ (fun f f' hlt info hinfo info' hinfo' => ?_) hnumbers
      rw [Before, hplace hinfo, hplace hinfo']
      omega

/-- The numbers of a loop ascend. -/
theorem pairwise_ofNat {n : Nat} (hn : n ≤ 256) :
    ((List.range n).map UInt8.ofNat).Pairwise fun b b' => b.toNat < b'.toNat := by
  refine List.pairwise_map.mpr (List.pairwise_lt_range.imp_of_mem fun {a b} ha hb hlt => ?_)
  rw [List.mem_range] at ha hb
  rw [UInt8.toNat_ofNat_of_lt' (ha.trans_le hn), UInt8.toNat_ofNat_of_lt' (hb.trans_le hn)]
  exact hlt

theorem PciConfig.busFunctions_pairwise : (config.busFunctions bus).Pairwise Before := by
  refine List.pairwise_flatMap.mpr ⟨fun device _ => deviceFunctions_pairwise, ?_⟩
  refine (pairwise_ofNat (by decide)).imp fun {d d'} hlt info hinfo info' hinfo' => ?_
  obtain ⟨hbus, hdevice, hpresent⟩ := mem_deviceFunctions.mp hinfo
  obtain ⟨hbus', hdevice', hpresent'⟩ := mem_deviceFunctions.mp hinfo'
  have h := (deviceInfo_eq_some hpresent.1).2
  have h' := (deviceInfo_eq_some hpresent'.1).2
  rw [Before, place, place, hbus, hbus', hdevice, hdevice']
  omega

theorem PciConfig.functions_pairwise : config.functions.Pairwise Before := by
  refine List.pairwise_flatMap.mpr ⟨fun bus _ => busFunctions_pairwise, ?_⟩
  refine (pairwise_ofNat (by decide)).imp fun {b b'} hlt info hinfo info' hinfo' => ?_
  obtain ⟨hbus, hpresent⟩ := mem_busFunctions.mp hinfo
  obtain ⟨hbus', hpresent'⟩ := mem_busFunctions.mp hinfo'
  have h := (deviceInfo_eq_some hpresent.1).2
  have h' := (deviceInfo_eq_some hpresent'.1).2
  rw [Before, place, place, hbus, hbus']
  omega

end

/-- `pci_enumerate` goes along the functions that there are, each one once and in the order of the
addresses, up to the first one from which its visitor does not go on. -/
theorem pciEnumerate_visits {κ : Type} (visit : PciDeviceInfo → κ → κ × Bool) (context : κ)
    (s : PciState) :
    Looks (pciEnumerate visit context) s
      (if s.available then (visitAll visit s.config.functions context).1 else context) ∧
    s.config.functions.Pairwise Before ∧
    ∀ info, info ∈ s.config.functions ↔ s.config.Present info := by
  refine ⟨Looks.get_bind ?_, PciConfig.functions_pairwise, fun info => PciConfig.mem_functions⟩
  cases ha : s.available with
  | false => exact Looks.pure
  | true => exact pciVisitBuses_looks ha _

end FunnyOS.Devices
