import FunnyOS.Lib.Ends
import FunnyOS.Programs.Image

/-!
# What the loader accepts

`process_configure_image_layout` reads a file of which nothing is known. `ImageOk` says what its
acceptance means for the file and for the place of the image, and `imageByte` what every byte of
the image holds after `process_copy_image_segments`.
-/

namespace FunnyOS.Programs

open Prog

/-! ## The file -/

/-- The header of a file. -/
def elfHeader (file : List UInt8) : Elf64Header := .decode (file.take elf64HeaderSize)

/-- The program header with the number `index`. -/
def programHeader (file : List UInt8) (index : Nat) : Elf64ProgramHeader :=
  .decode ((file.drop ((elfHeader file).phoff + index * elf64ProgramHeaderSize)).take
    elf64ProgramHeaderSize)

/-- The segments to load, in the order of the program headers. -/
def loadSegments (file : List UInt8) : List Elf64ProgramHeader :=
  ((List.range (elfHeader file).phnum).map (programHeader file)).filter (·.type = ptLoad)

/-- The segment's memory covers the address. -/
def Elf64ProgramHeader.covers (segment : Elf64ProgramHeader) (a : Nat) : Bool :=
  segment.vaddr ≤ a && a < segment.vaddr + segment.memsz

/-- What a segment puts at an address that it covers: a byte of the file, or 0 behind them. -/
def Elf64ProgramHeader.byte (file : List UInt8) (segment : Elf64ProgramHeader) (a : Nat) : UInt8 :=
  if a < segment.vaddr + segment.filesz then file.getD (segment.offset + (a - segment.vaddr)) 0
  else 0

/-- What an address of the image holds: what the last segment that covers it puts there. -/
def imageByte (file : List UInt8) (a : Nat) : UInt8 :=
  match (loadSegments file).reverse.find? (·.covers a) with
  | none => 0
  | some segment => segment.byte file a

/-! ## What acceptance means -/

/-- The file part of a segment lies in the file, its memory where images may be. -/
structure SegmentOk (file : List UInt8) (segment : Elf64ProgramHeader) : Prop where
  inFile : segment.offset + segment.filesz ≤ file.length
  filesz_le : segment.filesz ≤ segment.memsz
  base_le : processAbiImageBase ≤ segment.vaddr
  le_limit : segment.vaddr + segment.memsz ≤ processAbiImageLimit

/-- The header and the program headers lie in the file. -/
structure HeadersOk (file : List UInt8) : Prop where
  header : elf64HeaderSize ≤ file.length
  phentsize : (elfHeader file).phentsize = elf64ProgramHeaderSize
  programHeaders : (elfHeader file).phoff + (elfHeader file).phnum * elf64ProgramHeaderSize
    ≤ file.length

/-- The memory of a segment lies in the image. -/
def ProcessAddressSpace.Holds (space : ProcessAddressSpace) (segment : Elf64ProgramHeader) : Prop :=
  space.imageBase ≤ segment.vaddr ∧
    segment.vaddr + segment.memsz ≤ space.imageBase + space.imageCapacity

/-- The process has an image that fits the file. -/
structure ImageOk (file : List UInt8) (process : Process) : Prop where
  headers : HeadersOk file
  segments : ∀ segment ∈ loadSegments file, SegmentOk file segment
  holds : ∀ segment ∈ loadSegments file, process.addressSpace.Holds segment
  base_le : processAbiImageBase ≤ process.addressSpace.imageBase
  le_limit : process.addressSpace.imageBase + process.addressSpace.imageCapacity
    ≤ processAbiImageLimit
  stack : process.addressSpace.imageBase + process.addressSpace.imageCapacity
    ≤ process.addressSpace.stackBase
  entry : process.addressSpace.imageBase ≤ process.image.entryPoint ∧ process.image.entryPoint
    < process.addressSpace.imageBase + process.addressSpace.imageCapacity

section

variable {file : List UInt8} {s : LoadState} {segment : Elf64ProgramHeader}
  {layout : ImageLayout} {ps : List Elf64ProgramHeader} {indices : List Nat} {text : String}
  {offset count dst kernelImageEnd : Nat}

/-! ## Single steps -/

theorem readFile_run (hs : s.process.image.fileBuffer = file) (h : offset + count ≤ file.length) :
    readFile offset count s = .ok ((file.drop offset).take count) s := by
  subst hs
  exact if_pos h

theorem readHeader_run (hs : s.process.image.fileBuffer = file)
    (h : elf64HeaderSize ≤ file.length) : readHeader s = .ok (elfHeader file) s := by
  unfold readHeader
  rw [bind_of_ok (readFile_run hs (by omega))]
  rfl

/-- No sum wraps on the way to a program header. -/
theorem readProgramHeader_run (hs : s.process.image.fileBuffer = file) (hok : HeadersOk file)
    (hfile : file.length ≤ processMaxFileSize) {index : Nat}
    (hindex : index < (elfHeader file).phnum) :
    readProgramHeader (elfHeader file) index s = .ok (programHeader file index) s := by
  have hlast : (index + 1) * elf64ProgramHeaderSize
      ≤ (elfHeader file).phnum * elf64ProgramHeaderSize := Nat.mul_le_mul_right _ hindex
  rw [Nat.add_mul, Nat.one_mul] at hlast
  have hin := hok.programHeaders
  have hwrap : ((elfHeader file).phoff + index * (elfHeader file).phentsize) % 2 ^ 64 =
      (elfHeader file).phoff + index * elf64ProgramHeaderSize := by
    rw [hok.phentsize]
    simp only [processMaxFileSize] at hfile
    exact Nat.mod_eq_of_lt (by omega)
  unfold readProgramHeader
  rw [hwrap, bind_of_ok (readFile_run hs (by omega))]
  rfl

theorem not_badSegment (h : ¬ badSegment file.length segment = true) :
    segment.offset + segment.filesz ≤ file.length ∧ segment.filesz ≤ segment.memsz := by
  simp only [badSegment, gt_iff_lt, Bool.or_eq_true, decide_eq_true_eq, not_or, not_lt] at h
  omega

theorem headersOk_of_not_bad (hsize : ¬ file.length < elf64HeaderSize)
    (h : ¬ badHeader file.length (elfHeader file) = true) : HeadersOk file := by
  simp only [badHeader, gt_iff_lt, Bool.or_eq_true, decide_eq_true_eq, not_or, not_lt,
    ne_eq, not_not] at h
  obtain ⟨⟨⟨-, hentsize⟩, hoff⟩, hall⟩ := h
  rw [hentsize] at hall
  exact ⟨Nat.le_of_not_lt hsize, hentsize, by omega⟩

/-! ## Pages -/

theorem alignDownPage_le {a : Nat} (h : processAbiImageBase ≤ a) :
    processAbiImageBase ≤ alignDownPage a ∧ alignDownPage a ≤ a := by
  simp only [alignDownPage, pageSize, processAbiImageBase, Memory.processAbiRegionStart] at *
  omega

theorem le_alignUpPage {a : Nat} (h : a ≤ processAbiImageLimit) :
    a ≤ alignUpPage (a % 2 ^ 64) ∧ alignUpPage (a % 2 ^ 64) ≤ processAbiImageLimit := by
  simp only [alignUpPage, pageSize, processAbiImageLimit, processAbiStackBase, processAbiStackTop,
    Memory.processAbiRegionEnd, processAbiStackSize, processAbiStackGap] at *
  omega

/-! ## The layout -/

/-- The bounds of the image after the segments `ps`. -/
structure Laid (file : List UInt8) (ps : List Elf64ProgramHeader) (layout : ImageLayout) : Prop where
  segments : ∀ segment ∈ ps, segment.type = ptLoad → SegmentOk file segment ∧
    layout.imageMin ≤ segment.vaddr ∧ segment.vaddr + segment.memsz ≤ layout.imageEnd
  base_le : processAbiImageBase ≤ layout.imageMin
  le_limit : layout.imageEnd ≤ processAbiImageLimit

/-- Bounds that are wider are bounds. -/
theorem Laid.snoc {layout' : ImageLayout} (h : Laid file ps layout)
    (hseg : segment.type = ptLoad → SegmentOk file segment ∧
      layout'.imageMin ≤ segment.vaddr ∧ segment.vaddr + segment.memsz ≤ layout'.imageEnd)
    (hmin : layout'.imageMin ≤ layout.imageMin) (hend : layout.imageEnd ≤ layout'.imageEnd)
    (hbase : processAbiImageBase ≤ layout'.imageMin)
    (hlimit : layout'.imageEnd ≤ processAbiImageLimit) : Laid file (ps ++ [segment]) layout' := by
  constructor
  · intro p hp hload
    rcases List.mem_append.mp hp with hp | hp
    · obtain ⟨hok, hlow, hhigh⟩ := h.segments p hp hload
      exact ⟨hok, hmin.trans hlow, hhigh.trans hend⟩
    · obtain rfl := List.mem_singleton.mp hp
      exact hseg hload
  · exact hbase
  · exact hlimit

/-- A refusal writes a line on the console and leaves the memory. -/
def Refused (s : LoadState) (_ : Unit) (s' : LoadState) : Prop :=
  s'.memory = s.memory ∧ ∃ text, s'.console = text :: s.console

theorem refuse_refused {α : Type} {Q : α → LoadState → Prop} :
    Ends (refuse text : Loader α) s Q (Refused s) := ⟨rfl, text, rfl⟩

theorem configureSegment_ends (h : Laid file ps layout) :
    Ends (configureSegment file.length segment layout) s
      (fun layout' s' => s' = s ∧ Laid file (ps ++ [segment]) layout') (Refused s) := by
  refine Ends.ite (fun htype => Ends.pure ⟨rfl, ?_⟩) (fun _ => ?_)
  · exact h.snoc (fun hload => absurd hload htype) le_rfl le_rfl h.base_le h.le_limit
  refine Ends.ite (fun _ => refuse_refused) (fun hbad => ?_)
  refine Ends.ite (fun _ => refuse_refused) (fun hplace => Ends.pure ⟨rfl, ?_⟩)
  obtain ⟨hin, hle⟩ := not_badSegment hbad
  simp only [not_or, not_lt, ge_iff_le, not_le, gt_iff_lt] at hplace
  obtain ⟨hbase, hlimit, hsize⟩ := hplace
  have hstop : segment.vaddr + segment.memsz ≤ processAbiImageLimit := by omega
  obtain ⟨hdown, hdown'⟩ := alignDownPage_le hbase
  obtain ⟨hup, hup'⟩ := le_alignUpPage hstop
  have hlow := h.base_le
  have hhigh := h.le_limit
  refine h.snoc (fun _ => ⟨⟨hin, hle, hbase, hstop⟩, ?_, ?_⟩) ?_ ?_ ?_ ?_ <;> simp only <;> split <;>
    omega

/-- The program headers with the numbers `indices`, one after the other. -/
theorem configureSegments_ends (hs : s.process.image.fileBuffer = file) (hok : HeadersOk file)
    (hfile : file.length ≤ processMaxFileSize)
    (hindices : ∀ index ∈ indices, index < (elfHeader file).phnum) (h : Laid file ps layout) :
    Ends (configureSegments file.length (elfHeader file) indices layout) s
      (fun layout' s' => s' = s ∧ Laid file (ps ++ indices.map (programHeader file)) layout')
      (Refused s) := by
  induction indices generalizing layout ps with
  | nil =>
    refine Ends.pure ⟨rfl, ?_⟩
    rw [List.map_nil, List.append_nil]
    exact h
  | cons index rest ih =>
    unfold configureSegments
    have hread := readProgramHeader_run hs hok hfile (hindices index List.mem_cons_self)
    refine Ends.of_bind_ok hread (Ends.bind (configureSegment_ends h) (fun _ _ h => h) ?_)
    rintro layout' s' ⟨rfl, hlaid⟩
    have hrest := ih (fun i hi => hindices i (List.mem_cons_of_mem index hi)) hlaid
    rwa [List.append_assoc] at hrest

/-- What `process_configure_image_layout` accepts. -/
theorem processConfigureImageLayout_ends (hs : s.process = processResetFields file)
    (hfile : file.length ≤ processMaxFileSize) :
    Ends (processConfigureImageLayout kernelImageEnd file.length) s
      (fun _ s' => s'.process.image.fileBuffer = file ∧ s'.memory = s.memory ∧
        ImageOk file s'.process) (Refused s) := by
  have hbuffer : s.process.image.fileBuffer = file := by rw [hs]; rfl
  unfold processConfigureImageLayout
  refine Ends.ite (fun _ => refuse_refused) (fun hsize => ?_)
  refine Ends.of_bind_ok (readHeader_run hbuffer (Nat.le_of_not_lt hsize)) ?_
  refine Ends.ite (fun _ => refuse_refused) (fun hheader => ?_)
  have hok := headersOk_of_not_bad hsize hheader
  have hstart : Laid file [] ⟨2 ^ 64 - 1, 0, false⟩ := ⟨by simp, by decide, by decide⟩
  refine Ends.bind (configureSegments_ends hbuffer hok hfile (fun i hi => List.mem_range.mp hi) hstart)
    (fun _ _ h => h) ?_
  rintro layout s' ⟨rfl, hlaid⟩
  refine Ends.ite (fun _ => refuse_refused) (fun _ => ?_)
  refine Ends.ite (fun _ => refuse_refused) (fun _ => ?_)
  refine Ends.ite (fun _ => refuse_refused) (fun hentry => ?_)
  refine Ends.ite (fun _ => refuse_refused) (fun hne => ?_)
  simp only [not_or, not_lt, ge_iff_le, not_le] at hentry hne
  refine Ends.modify_bind (Ends.get_bind ?_)
  refine Ends.ite (fun _ => refuse_refused) (fun _ => ?_)
  -- the stack lies behind every image
  have hstack : s'.process.addressSpace.stackBase = processAbiStackBase := by rw [hs]; rfl
  have hgap : ¬ (layout.imageEnd + processAbiStackGap) % 2 ^ 64
      > s'.process.addressSpace.stackBase := by
    rw [hstack]
    have hlimit := hlaid.le_limit
    simp only [processAbiImageLimit, processAbiStackBase, processAbiStackTop,
      Memory.processAbiRegionEnd, processAbiStackSize, processAbiStackGap] at *
    omega
  simp only [if_neg hgap]
  refine Ends.modify ⟨hbuffer, rfl, ?_⟩
  have hstop : layout.imageMin + (layout.imageEnd - layout.imageMin) = layout.imageEnd := by omega
  have hsegments : ∀ segment ∈ loadSegments file, SegmentOk file segment ∧
      layout.imageMin ≤ segment.vaddr ∧ segment.vaddr + segment.memsz ≤ layout.imageEnd := by
    intro segment hsegment
    obtain ⟨hmem, htype⟩ := List.mem_filter.mp hsegment
    exact hlaid.segments segment hmem (of_decide_eq_true htype)
  refine ⟨hok, fun p hp => (hsegments p hp).1, fun p hp => ?_, hlaid.base_le, ?_, ?_, ?_⟩
  · obtain ⟨-, hlow, hhigh⟩ := hsegments p hp
    exact ⟨hlow, hhigh.trans_eq hstop.symm⟩
  · exact hstop.trans_le hlaid.le_limit
  · refine (hstop.trans_le hlaid.le_limit).trans ?_
    change processAbiImageLimit ≤ s'.process.addressSpace.stackBase
    rw [hstack]
    decide
  · exact ⟨hentry.1, hentry.2.trans_eq hstop.symm⟩

/-! ## The copy -/

variable {m : Nat → UInt8} {a : Nat}

/-- A segment in memory: zeros, and the bytes of the file over them. -/
def putSegment (file : List UInt8) (m : Nat → UInt8) (segment : Elf64ProgramHeader) : Nat → UInt8 :=
  overlay (overlay m segment.vaddr segment.memsz fun _ => 0) segment.vaddr segment.filesz
    fun i => file.getD (segment.offset + i) 0

theorem covers_iff : segment.covers a = true ↔
    segment.vaddr ≤ a ∧ a < segment.vaddr + segment.memsz := by
  simp [Elf64ProgramHeader.covers]

theorem putSegment_inside (h : segment.covers a = true) :
    putSegment file m segment a = segment.byte file a :=
  overlay_overlay (covers_iff.mp h)

theorem putSegment_outside (hle : segment.filesz ≤ segment.memsz) (h : segment.covers a = false) :
    putSegment file m segment a = m a := by
  have hout : ¬ (segment.vaddr ≤ a ∧ a < segment.vaddr + segment.memsz) := by
    rw [← covers_iff, h]
    simp
  unfold putSegment
  rw [overlay_outside (by omega), overlay_outside hout]

/-- The state with another memory. -/
def LoadState.withMemory (s : LoadState) (m : Nat → UInt8) : LoadState := { s with memory := m }

variable (m) in
theorem LoadState.withMemory_buffer :
    (s.withMemory m).process.image.fileBuffer = s.process.image.fileBuffer := rfl

variable (m count) in
theorem store_run {address : Nat} {value : Nat → UInt8}
    (h : s.process.addressSpace.imageBase ≤ address ∧ address + count
      ≤ s.process.addressSpace.imageBase + s.process.addressSpace.imageCapacity) :
    store address count value (s.withMemory m) =
      .ok () (s.withMemory (overlay m address count value)) :=
  if_pos (.inr h)

theorem copySegment_run (hs : s.process.image.fileBuffer = file) (htype : segment.type = ptLoad)
    (hok : SegmentOk file segment) (hholds : s.process.addressSpace.Holds segment) :
    copySegment file.length segment (s.withMemory m) =
      .ok () (s.withMemory (putSegment file m segment)) := by
  have hin := hok.inFile
  have hle := hok.filesz_le
  have hgood : badSegment file.length segment = false := by
    simp only [badSegment, gt_iff_lt, Bool.or_eq_false_iff, decide_eq_false_iff_not, not_lt]
    omega
  have hlength : ((file.drop segment.offset).take segment.filesz).length = segment.filesz := by
    rw [List.length_take, List.length_drop]
    omega
  have hbytes : ∀ i < segment.filesz, ((file.drop segment.offset).take segment.filesz).getD i 0 =
      file.getD (segment.offset + i) 0 := by
    intro i hi
    simp [List.getD_eq_getElem?_getD, hi]
  obtain ⟨hlow, hhigh⟩ := hholds
  have hcopy : segment.vaddr + segment.filesz
      ≤ s.process.addressSpace.imageBase + s.process.addressSpace.imageCapacity := by omega
  unfold copySegment
  rw [if_neg (not_not.mpr htype), if_neg (by simp [hgood])]
  unfold kMemset kMemcpy
  rw [bind_of_ok (store_run segment.memsz m ⟨hlow, hhigh⟩),
    bind_of_ok (readFile_run ((LoadState.withMemory_buffer _).trans hs) hin), hlength,
    store_run segment.filesz _ ⟨hlow, hcopy⟩, overlay_congr hbytes]
  rfl

/-- The segments with the numbers `indices`, one after the other. -/
theorem copySegments_run (hs : s.process.image.fileBuffer = file) (hok : HeadersOk file)
    (hfile : file.length ≤ processMaxFileSize)
    (hindices : ∀ index ∈ indices, index < (elfHeader file).phnum)
    (hsegments : ∀ segment ∈ (indices.map (programHeader file)).filter (·.type = ptLoad),
      SegmentOk file segment ∧ s.process.addressSpace.Holds segment) :
    copySegments file.length (elfHeader file) indices (s.withMemory m) =
      .ok () (s.withMemory (((indices.map (programHeader file)).filter (·.type = ptLoad)).foldl
        (putSegment file) m)) := by
  induction indices generalizing m with
  | nil => rfl
  | cons index rest ih =>
    have hread := readProgramHeader_run ((LoadState.withMemory_buffer m).trans hs) hok hfile
      (hindices index List.mem_cons_self)
    have hrest := fun i hi => hindices i (List.mem_cons_of_mem index hi)
    unfold copySegments
    rw [bind_of_ok hread]
    rw [List.map_cons] at hsegments ⊢
    by_cases htype : (programHeader file index).type = ptLoad
    · rw [List.filter_cons_of_pos (by simpa using htype)] at hsegments ⊢
      obtain ⟨hseg, hholds⟩ := hsegments _ List.mem_cons_self
      rw [bind_of_ok (copySegment_run hs htype hseg hholds), List.foldl_cons]
      exact ih hrest fun p hp => hsegments p (List.mem_cons_of_mem _ hp)
    · rw [List.filter_cons_of_neg (by simpa using htype)] at hsegments ⊢
      have hskip : copySegment file.length (programHeader file index) (s.withMemory m) =
          .ok () (s.withMemory m) := by
        unfold copySegment
        rw [if_pos htype]
        rfl
      rw [bind_of_ok hskip]
      exact ih hrest hsegments

/-- What the segments leave behind in a cleared image. -/
theorem foldl_putSegment (hle : ∀ segment ∈ loadSegments file, segment.filesz ≤ segment.memsz) :
    (loadSegments file).foldl (putSegment file) m a =
      match (loadSegments file).reverse.find? (·.covers a) with
      | none => m a
      | some segment => segment.byte file a := by
  have hinside : ∀ segment ∈ loadSegments file, ∀ m, segment.covers a = true →
      putSegment file m segment a = segment.byte file a := fun _ _ _ h => putSegment_inside h
  have houtside : ∀ segment ∈ loadSegments file, ∀ m, segment.covers a = false →
      putSegment file m segment a = m a :=
    fun segment hsegment _ h => putSegment_outside (hle segment hsegment) h
  rw [foldl_last hinside houtside]
  cases (loadSegments file).reverse.find? (·.covers a) <;> rfl

/-- The copy into an image that fits the file. -/
theorem processCopyImageSegments_run (hs : s.process.image.fileBuffer = file)
    (hfile : file.length ≤ processMaxFileSize) (hok : ImageOk file s.process) :
    ∃ s', processCopyImageSegments file.length s = .ok () s' ∧ s'.process.state = .loaded ∧
      ∀ a, s'.memory a =
        if s.process.addressSpace.imageBase ≤ a ∧ a < s.process.addressSpace.imageBase
            + s.process.addressSpace.imageCapacity then imageByte file a
        else s.memory a := by
  have hread := readHeader_run hs hok.headers.header
  have hclear : kMemset s.process.addressSpace.imageBase 0 s.process.addressSpace.imageCapacity s =
      .ok () (s.withMemory (overlay s.memory s.process.addressSpace.imageBase
        s.process.addressSpace.imageCapacity fun _ => 0)) :=
    store_run s.process.addressSpace.imageCapacity s.memory ⟨le_rfl, le_rfl⟩
  have hcopy := fun m => copySegments_run (m := m) hs hok.headers hfile
    (fun i hi => List.mem_range.mp hi) fun p hp => ⟨hok.segments p hp, hok.holds p hp⟩
  have hget : (Prog.get : Loader LoadState) s = .ok s s := rfl
  have hrun : processCopyImageSegments file.length s = .ok ()
      { s.withMemory ((loadSegments file).foldl (putSegment file) (overlay s.memory
          s.process.addressSpace.imageBase s.process.addressSpace.imageCapacity fun _ => 0)) with
        process.state := .loaded } := by
    unfold processCopyImageSegments
    rw [bind_of_ok hread, bind_of_ok hget, bind_of_ok hclear, bind_of_ok (hcopy _)]
    rfl
  refine ⟨_, hrun, rfl, fun a => ?_⟩
  change (loadSegments file).foldl (putSegment file) _ a = _
  by_cases ha : s.process.addressSpace.imageBase ≤ a ∧ a < s.process.addressSpace.imageBase
      + s.process.addressSpace.imageCapacity
  · rw [if_pos ha, foldl_putSegment fun p hp => (hok.segments p hp).filesz_le, overlay_inside ha]
    rfl
  · rw [if_neg ha, foldl_outside, overlay_outside ha]
    intro segment hsegment m
    refine putSegment_outside (hok.segments segment hsegment).filesz_le ?_
    obtain ⟨hlow, hhigh⟩ := hok.holds segment hsegment
    rw [← Bool.not_eq_true, covers_iff]
    omega

/-- A program file, whatever its content: what `process_configure_image_layout` accepts has an
image in its place, and `process_copy_image_segments` fills the image and nothing else. -/
theorem image_of_accepted {s' : LoadState} (hfile : file.length ≤ processMaxFileSize)
    (hs : s.process = processResetFields file)
    (h : processConfigureImageLayout kernelImageEnd file.length s = .ok () s') :
    ImageOk file s'.process ∧ ∃ s'', processCopyImageSegments file.length s' = .ok () s'' ∧
      ∀ a, s''.memory a =
        if s'.process.addressSpace.imageBase ≤ a ∧ a < s'.process.addressSpace.imageBase
            + s'.process.addressSpace.imageCapacity then imageByte file a
        else s.memory a := by
  obtain ⟨hbuffer, hmemory, hok⟩ := (processConfigureImageLayout_ends hs hfile).of_ok h
  obtain ⟨s'', hcopy, -, hbytes⟩ := processCopyImageSegments_run hbuffer hfile hok
  rw [hmemory] at hbytes
  exact ⟨hok, s'', hcopy, hbytes⟩

end

/-- A file with one segment, of one byte of code and 4 KiB of memory. -/
def sampleFile : List UInt8 :=
  [0x7F, 0x45, 0x4C, 0x46, 2, 1, 1, 0, 0, 0, 0, 0, 0, 0, 0, 0] ++ [2, 0, 62, 0, 1, 0, 0, 0] ++
    [0, 0, 0, 0, 0x80, 0, 0, 0] ++ [64, 0, 0, 0, 0, 0, 0, 0] ++ List.replicate 12 0 ++
    [64, 0, 56, 0, 1, 0, 0, 0, 0, 0, 0, 0] ++
  ([1, 0, 0, 0, 5, 0, 0, 0] ++ [120, 0, 0, 0, 0, 0, 0, 0] ++ [0, 0, 0, 0, 0x80, 0, 0, 0] ++
    [0, 0, 0, 0, 0x80, 0, 0, 0] ++ [1, 0, 0, 0, 0, 0, 0, 0] ++ [0, 16, 0, 0, 0, 0, 0, 0] ++
    [0, 16, 0, 0, 0, 0, 0, 0]) ++ [0xC3]

/-- The process before the file is laid out, with a kernel that ends at 2 MiB. -/
def sampleLoad : LoadState := ⟨processResetFields sampleFile, fun _ => 0xFF, []⟩

/-- The process behind that. -/
def sampleLaid : LoadState :=
  (processConfigureImageLayout 0x200000 sampleFile.length sampleLoad).finalState sampleLoad

theorem image_of_accepted_sample : ImageOk sampleFile sampleLaid.process ∧
    ∃ s'', processCopyImageSegments sampleFile.length sampleLaid = .ok () s'' ∧
      ∀ a, s''.memory a =
        if sampleLaid.process.addressSpace.imageBase ≤ a ∧
            a < sampleLaid.process.addressSpace.imageBase
              + sampleLaid.process.addressSpace.imageCapacity then imageByte sampleFile a
        else sampleLoad.memory a := by
  have hcall : processConfigureImageLayout 0x200000 sampleFile.length sampleLoad =
      .ok () sampleLaid := eq_ok_of_isOk (by decide +kernel)
  have hlength : sampleFile.length ≤ processMaxFileSize := by decide +kernel
  exact image_of_accepted hlength rfl hcall

end FunnyOS.Programs
