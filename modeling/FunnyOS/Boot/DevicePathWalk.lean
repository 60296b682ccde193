import FunnyOS.Boot.DevicePath

/-!
# The kernel's walk follows the path

What one round of either walk can do is said once, for any handling of the nodes. From it follow
that a walk ends and looks at nothing behind the recorded size, whatever the buffer holds, and that
on a path from the loader it comes to the nodes of the firmware's list.
-/

namespace FunnyOS.Boot

open Prog

/-! ## The nodes of a path -/

/-- The nodes from an offset on, up to the offset of the node that ends the path. -/
inductive PathNodes (memory : Nat → UInt8) : Nat → List (List UInt8) → Nat → Prop
  | last {offset : Nat} : devicePathIsEnd memory offset = true → PathNodes memory offset [] offset
  | node {offset last : Nat} {nodes : List (List UInt8)} : devicePathIsEnd memory offset = false →
      devicePathNodeSize ≤ devicePathLength memory offset →
      PathNodes memory (offset + devicePathLength memory offset) nodes last →
      PathNodes memory offset
        (nodeBytes memory offset (devicePathLength memory offset) :: nodes) last

theorem PathNodes.le {memory : Nat → UInt8} {offset last : Nat} {nodes : List (List UInt8)}
    (h : PathNodes memory offset nodes last) : offset ≤ last := by
  induction h with
  | last _ => exact le_rfl
  | node _ _ _ ih => omega

/-! ## The loader -/

/-- What the loader knows of the path when it has come to a node. -/
structure Measured (memory : Nat → UInt8) (cursor : Nat × Nat) : Prop where
  same : cursor.1 = cursor.2
  fits : cursor.2 ≤ bootinfoDevicePathCapacity
  before : ∃ before, ∀ nodes last, PathNodes memory cursor.1 nodes last →
    PathNodes memory 0 (before ++ nodes) last

theorem measureNode_sat {memory : Nat → UInt8} {cursor : Nat × Nat} {info : BootInfo}
    (h : Measured memory cursor) : Sat (measureNode memory cursor) info
      (fun r info' => info' = info ∧ match r with
        | .again next => Measured memory next ∧ cursor.2 + devicePathNodeSize ≤ next.2
        | .done last => last = cursor ∧ devicePathIsEnd memory cursor.1 = true)
      (fun status _ => status = 1) := by
  unfold measureNode
  refine Sat.ite (fun hend => Sat.pure ⟨rfl, rfl, hend⟩) fun hlive => ?_
  refine Sat.ite (fun _ => Sat.raise rfl) fun hlength => ?_
  refine Sat.ite (fun _ => Sat.raise rfl) fun hfits => ?_
  refine Sat.pure ⟨rfl, ⟨congrArg (· + devicePathLength memory cursor.1) h.same, not_lt.mp hfits,
    ?_⟩, Nat.add_le_add_left (not_lt.mp hlength) _⟩
  obtain ⟨before, hbefore⟩ := h.before
  refine ⟨before ++ [nodeBytes memory cursor.1 (devicePathLength memory cursor.1)], ?_⟩
  intro nodes last hnodes
  rw [List.append_assoc]
  exact hbefore _ _ (.node (Bool.eq_false_iff.mpr hlive) (not_lt.mp hlength) hnodes)

/-- What the loader has copied. -/
structure Copied (memory : Nat → UInt8) (nodes : List (List UInt8)) (last : Nat)
    (info : BootInfo) : Prop where
  nodes : PathNodes memory 0 nodes last
  size : info.bootDevicePathSize = last + devicePathLength memory last
  fits : info.bootDevicePathSize ≤ bootinfoDevicePathCapacity
  bytes : ∀ i < info.bootDevicePathSize, info.bootDevicePath i = memory i

theorem copyBootDevicePath_sat {memory : Nat → UInt8} {info : BootInfo} :
    Sat (copyBootDevicePath (some memory)) info
      (fun _ info' => ∃ nodes last, Copied memory nodes last info') (fun status _ => status = 1) := by
  have hloop : Sat (loop (measureNode memory) pathRounds (0, 0)) info
      (fun cursor _ => Measured memory cursor ∧ devicePathIsEnd memory cursor.1 = true)
      (fun status _ => status = 1) := by
    refine Sat.loop (fun k cursor _ => Measured memory cursor ∧
      bootinfoDevicePathCapacity ≤ cursor.2 + 4 * k) ?_ pathRounds 32 (0, 0) info (by decide) ?_
    · rintro k cursor s ⟨hcursor, hk⟩
      refine Sat.mono (measureNode_sat hcursor) ?_ fun _ _ h => h
      rintro (next | last) s' ⟨-, h⟩
      · obtain ⟨hnext, hle⟩ := h
        have hfits := hnext.fits
        have hsize : devicePathNodeSize = 4 := rfl
        exact ⟨k - 1, by omega, hnext, by omega⟩
      · obtain ⟨rfl, hend⟩ := h
        exact ⟨hcursor, hend⟩
    · exact ⟨⟨rfl, by decide, [], fun _ _ h => h⟩, by decide⟩
  refine Sat.bind hloop (fun _ _ h => h) fun cursor s' h => ?_
  obtain ⟨hcursor, hend⟩ := h
  refine Sat.ite (fun _ => Sat.raise rfl) fun hfits => Sat.modify ?_
  obtain ⟨before, hbefore⟩ := hcursor.before
  refine ⟨_, cursor.1, hbefore _ _ (.last hend), ?_, not_lt.mp hfits, fun i hi => ?_⟩
  · exact congrArg (· + devicePathLength memory cursor.1) hcursor.same.symm
  · exact (overlay_inside ⟨Nat.zero_le i, by simpa using hi⟩).trans (by simp)

/-! ## What the kernel looks at -/

/-- Between the states only bytes from `first` to before `last` have been looked at. -/
structure Inside (s s' : WalkState) (first last : Nat) : Prop where
  info : s'.info = s.info
  reads : ∀ x ∈ s'.reads, x ∈ s.reads ∨ first ≤ x ∧ x < last
  casts : ∀ c ∈ s'.casts, c ∈ s.casts ∨ first ≤ c.1 ∧ c.1 + c.2 ≤ last

/-- The walk is still at the same node. -/
structure Seen (s s' : WalkState) (first last : Nat) : Prop extends Inside s s' first last where
  visited : s'.visited = s.visited

variable {s s' s'' : WalkState} {first last offset pathEnd : Nat}

theorem Inside.refl : Inside s s first last := ⟨rfl, fun _ h => .inl h, fun _ h => .inl h⟩

theorem Inside.trans (h : Inside s s' first last) (h' : Inside s' s'' first last) :
    Inside s s'' first last := by
  refine ⟨h'.info.trans h.info, fun x hx => ?_, fun c hc => ?_⟩
  · exact (h'.reads x hx).elim (h.reads x) .inr
  · exact (h'.casts c hc).elim (h.casts c) .inr

theorem Inside.mono {first' last' : Nat} (h : Inside s s' first' last') (hfirst : first ≤ first')
    (hlast : last' ≤ last) : Inside s s' first last := by
  refine ⟨h.info, fun x hx => ?_, fun c hc => ?_⟩
  · exact (h.reads x hx).imp_right fun hin => ⟨by omega, by omega⟩
  · exact (h.casts c hc).imp_right fun hin => ⟨by omega, by omega⟩

theorem Seen.refl : Seen s s first last := ⟨.refl, rfl⟩

theorem Seen.trans (h : Seen s s' first last) (h' : Seen s' s'' first last) :
    Seen s s'' first last := ⟨h.toInside.trans h'.toInside, h'.visited.trans h.visited⟩

theorem castBytes_sat (first last : Nat) {size : Nat} (h : first ≤ offset ∧ offset + size ≤ last) :
    Sat (castBytes offset size) s (fun _ s' => Seen s s' first last) (fun _ _ => False) := by
  refine Sat.modify ⟨⟨rfl, fun _ hx => .inl hx, fun c hc => ?_⟩, rfl⟩
  obtain rfl | hc := List.mem_cons.mp hc
  · exact .inr h
  · exact .inl hc

theorem readByte_sat (first last : Nat) (h : first ≤ offset ∧ offset < last) : Sat (readByte offset) s
    (fun value s' => Seen s s' first last ∧ value = s.info.bootDevicePath offset)
    (fun _ _ => False) := by
  refine Sat.modify_bind (Sat.get_bind (Sat.pure ⟨⟨⟨rfl, fun x hx => ?_, fun _ hc => .inl hc⟩,
    rfl⟩, rfl⟩))
  obtain rfl | hx := List.mem_cons.mp hx
  · exact .inr h
  · exact .inl hx

theorem readHalf_sat (first last : Nat) (h : first ≤ offset ∧ offset + 1 < last) : Sat (readHalf offset) s
    (fun value s' => Seen s s' first last ∧
      value = bytesToHalf (s.info.bootDevicePath offset) (s.info.bootDevicePath (offset + 1)))
    (fun _ _ => False) := by
  refine Sat.bind (readByte_sat first last ⟨h.1, by omega⟩) (fun _ _ h => h) ?_
  rintro low s₁ ⟨h₁, rfl⟩
  refine Sat.bind (readByte_sat first last ⟨by omega, h.2⟩) (fun _ _ h => h) ?_
  rintro high s₂ ⟨h₂, rfl⟩
  rw [h₁.info]
  exact Sat.pure ⟨h₁.trans h₂, rfl⟩

/-- The header at an offset. -/
def nodeAt (memory : Nat → UInt8) (offset : Nat) : DevicePathNode :=
  ⟨memory offset, memory (offset + 1), devicePathLength memory offset⟩

theorem readNode_sat (first last : Nat) (h : first ≤ offset ∧ offset + devicePathNodeSize ≤ last) :
    Sat (readNode offset) s
      (fun node s' => Seen s s' first last ∧ node = nodeAt s.info.bootDevicePath offset)
      (fun _ _ => False) := by
  have hsize : devicePathNodeSize = 4 := rfl
  refine Sat.bind (castBytes_sat first last h) (fun _ _ h => h) fun _ s₁ h₁ => ?_
  refine Sat.bind (readHalf_sat first last ⟨by omega, by omega⟩) (fun _ _ h => h) ?_
  rintro length s₂ ⟨h₂, rfl⟩
  refine Sat.bind (readByte_sat first last ⟨by omega, by omega⟩) (fun _ _ h => h) ?_
  rintro type s₃ ⟨h₃, rfl⟩
  refine Sat.bind (readByte_sat first last ⟨by omega, by omega⟩) (fun _ _ h => h) ?_
  rintro subtype s₄ ⟨h₄, rfl⟩
  rw [h₃.info, h₂.info, h₁.info]
  exact Sat.pure ⟨((h₁.trans h₂).trans h₃).trans h₄, rfl⟩

/-! ## A round -/

section

variable {α β : Type} {look : Nat → DevicePathNode → β → Walk (LoopStep β α)} {finish : β → α}
  {recognises : DevicePathNode → Bool}

/-- The handling of a node looks at the node only, and stops the walk at none but those that it
recognises. -/
def LooksAt (look : Nat → DevicePathNode → β → Walk (LoopStep β α))
    (recognises : DevicePathNode → Bool) : Prop :=
  ∀ offset node found s, Sat (look offset node found) s
    (fun r s' => Seen s s' offset (offset + node.length) ∧ match r with
      | .again _ => True
      | .done _ => recognises node = true)
    (fun e s' => Seen s s' offset (offset + node.length) ∧ e = .rejected ∧ recognises node = true)

/-- The walk has come to a whole node that is not the last. -/
structure Passed (s s' : WalkState) (offset pathEnd : Nat) : Prop where
  live : devicePathIsEnd s.info.bootDevicePath offset = false
  header : devicePathNodeSize ≤ devicePathLength s.info.bootDevicePath offset
  fits : offset + devicePathLength s.info.bootDevicePath offset ≤ pathEnd
  visited : s'.visited = s.visited ++
    [nodeBytes s.info.bootDevicePath offset (devicePathLength s.info.bootDevicePath offset)]

/-- What a round can end with. -/
def RoundEnds (recognises : DevicePathNode → Bool) (pathEnd offset : Nat) (s s' : WalkState) :
    LoopStep (Nat × β) α → Prop
  | .again next => Passed s s' offset pathEnd ∧
      next.1 = offset + devicePathLength s.info.bootDevicePath offset
  | .done _ =>
      (s'.visited = s.visited ∧ (pathEnd < offset + devicePathNodeSize ∨
        devicePathIsEnd s.info.bootDevicePath offset = true)) ∨
      (Passed s s' offset pathEnd ∧ recognises (nodeAt s.info.bootDevicePath offset) = true)

/-- What a round can be given up for. -/
def RoundFails (recognises : DevicePathNode → Bool) (pathEnd offset : Nat) (s s' : WalkState) :
    PathError → Prop
  | .nodeTooShort => offset + devicePathNodeSize ≤ pathEnd ∧
      devicePathLength s.info.bootDevicePath offset < devicePathNodeSize
  | .nodePastEnd => offset + devicePathNodeSize ≤ pathEnd ∧
      pathEnd < offset + devicePathLength s.info.bootDevicePath offset
  | .rejected =>
      Passed s s' offset pathEnd ∧ recognises (nodeAt s.info.bootDevicePath offset) = true

theorem visit_sat (first last : Nat) {length : Nat} : Sat (visit offset length) s
    (fun _ s' => Inside s s' first last ∧
      s'.visited = s.visited ++ [nodeBytes s.info.bootDevicePath offset length])
    (fun _ _ => False) :=
  Sat.modify ⟨⟨rfl, fun _ h => .inl h, fun _ h => .inl h⟩, rfl⟩

theorem walkNode_sat (hlook : LooksAt look recognises) {cursor : Nat × β} :
    Sat (walkNode pathEnd look finish cursor) s
      (fun r s' => Inside s s' 0 pathEnd ∧ RoundEnds recognises pathEnd cursor.1 s s' r)
      (fun e s' => Inside s s' 0 pathEnd ∧ RoundFails recognises pathEnd cursor.1 s s' e) := by
  have hsize : devicePathNodeSize = 4 := rfl
  unfold walkNode
  refine Sat.ite (fun hend => Sat.pure ⟨.refl, .inl ⟨rfl, .inl ?_⟩⟩) fun hnot => ?_
  · omega
  have hin : cursor.1 + devicePathNodeSize ≤ pathEnd := (not_not.mp hnot).1
  refine Sat.bind (readNode_sat 0 pathEnd ⟨Nat.zero_le _, hin⟩)
    (fun _ _ h => h.elim) ?_
  rintro node s₁ ⟨h₁, rfl⟩
  refine Sat.ite (fun hshort => Sat.raise ⟨h₁.toInside, hin, hshort⟩) fun hheader => ?_
  refine Sat.ite (fun hpast => Sat.raise ⟨h₁.toInside, hin, hpast⟩) fun hfits => ?_
  refine Sat.ite (fun hend => Sat.pure ⟨h₁.toInside, .inl ⟨h₁.visited, .inr ?_⟩⟩) fun hlive => ?_
  · unfold devicePathIsEnd
    exact Bool.and_eq_true_iff.mpr ⟨beq_iff_eq.mpr hend.1, beq_iff_eq.mpr hend.2⟩
  refine Sat.bind (visit_sat 0 pathEnd) (fun _ _ h => h.elim) ?_
  rintro _ s₂ ⟨h₂, hvisited⟩
  have hpassed : ∀ s₃ : WalkState, s₃.visited = s₂.visited → Passed s s₃ cursor.1 pathEnd := by
    intro s₃ h₃
    refine ⟨Bool.eq_false_iff.mpr fun hend => hlive ?_, not_lt.mp hheader, not_lt.mp hfits, ?_⟩
    · obtain ⟨htype, hsubtype⟩ := Bool.and_eq_true_iff.mp hend
      exact ⟨beq_iff_eq.mp htype, beq_iff_eq.mp hsubtype⟩
    · rw [h₃, hvisited, h₁.visited, h₁.info]
      rfl
  have hinside : ∀ s₃, Seen s₂ s₃ cursor.1 (cursor.1 + devicePathLength s.info.bootDevicePath
      cursor.1) → Inside s s₃ 0 pathEnd := by
    intro s₃ h₃
    exact (h₁.toInside.trans h₂).trans (h₃.toInside.mono (Nat.zero_le _) (not_lt.mp hfits))
  refine Sat.bind (hlook _ _ _ s₂) ?_ ?_
  · rintro e s₃ ⟨h₃, rfl, hrec⟩
    exact ⟨hinside s₃ h₃, hpassed s₃ h₃.visited, hrec⟩
  · rintro (found | result) s₃ ⟨h₃, hr⟩
    · exact Sat.pure ⟨hinside s₃ h₃, hpassed s₃ h₃.visited, rfl⟩
    · exact Sat.pure ⟨hinside s₃ h₃, .inr ⟨hpassed s₃ h₃.visited, hr⟩⟩

/-! ## A walk -/

/-- A walk that ends has looked at nothing behind the recorded size. -/
structure ReadsInside (size : Nat) (o : Outcome WalkState PathError α) : Prop where
  ends : o.result.isSome = true
  reads : ∀ x ∈ o.state.reads, x < size
  casts : ∀ c ∈ o.state.casts, c.1 + c.2 ≤ size

theorem readsInside_of_sat {x : Walk α} (hdef : Defined x) (hreads : s.reads = [])
    (hcasts : s.casts = [])
    (h : Sat x s (fun _ s' => Inside s s' 0 pathEnd) (fun _ s' => Inside s s' 0 pathEnd)) :
    ReadsInside pathEnd (x s) := by
  have hinside : ∀ s', Inside s s' 0 pathEnd →
      (∀ x ∈ s'.reads, x < pathEnd) ∧ ∀ c ∈ s'.casts, c.1 + c.2 ≤ pathEnd := by
    intro s' hs'
    constructor
    · intro x hx
      rcases hs'.reads x hx with hin | hin
      · rw [hreads] at hin
        exact absurd hin List.not_mem_nil
      · exact hin.2
    · intro c hc
      rcases hs'.casts c hc with hin | hin
      · rw [hcasts] at hin
        exact absurd hin List.not_mem_nil
      · exact hin.2
  unfold Sat at h
  cases hx : x s with
  | ok a s' =>
    rw [hx] at h
    exact ⟨rfl, (hinside s' h).1, (hinside s' h).2⟩
  | error e s' =>
    rw [hx] at h
    exact ⟨rfl, (hinside s' h).1, (hinside s' h).2⟩
  | fault s' => exact absurd hx (hdef s s')
  | timeout s' =>
    rw [hx] at h
    exact h.elim

/-- Every round takes the walk at least a header further: it ends inside the recorded size. -/
theorem walk_inside (hlook : LooksAt look recognises) (hsize : pathEnd ≤ bootinfoDevicePathCapacity)
    {found : β} : Sat (loop (walkNode pathEnd look finish) pathRounds (0, found)) s
      (fun _ s' => Inside s s' 0 pathEnd) (fun _ s' => Inside s s' 0 pathEnd) := by
  refine Sat.loop (fun k cursor s' => Inside s s' 0 pathEnd ∧ pathEnd ≤ cursor.1 + 4 * k) ?_
    pathRounds 32 (0, found) s (by decide) ⟨.refl, by simpa using hsize⟩
  rintro k cursor s₁ ⟨h₁, hk⟩
  refine Sat.mono (walkNode_sat hlook) ?_ fun _ _ h => h₁.trans h.1
  rintro (next | result) s₂ ⟨h₂, hround⟩
  · obtain ⟨hpassed, hnext⟩ := hround
    have hheader := hpassed.header
    have hfits := hpassed.fits
    have hnode : devicePathNodeSize = 4 := rfl
    exact ⟨k - 1, by omega, h₁.trans h₂, by omega⟩
  · exact h₁.trans h₂

/-- The header of a node with the given bytes. -/
def headerOf (node : List UInt8) : DevicePathNode := ⟨node.getD 0 0, node.getD 1 0, node.length⟩

/-- What a walk may have come to: all nodes, or those up to one that it recognises. -/
def Visits (recognises : DevicePathNode → Bool) (nodes visited : List (List UInt8)) : Prop :=
  visited = nodes ∨ ∃ before node after, nodes = before ++ node :: after ∧
    visited = before ++ [node] ∧ recognises (headerOf node) = true

/-- A walk that follows a path does not find its nodes malformed. -/
structure FollowsPath (recognises : DevicePathNode → Bool) (nodes : List (List UInt8))
    (o : Outcome WalkState PathError α) : Prop where
  ends : o.result.isSome = true
  wellFormed : o.code ≠ some .nodeTooShort ∧ o.code ≠ some .nodePastEnd
  visits : Visits recognises nodes o.state.visited

theorem followsPath_of_sat {x : Walk α} {nodes : List (List UInt8)} (hdef : Defined x)
    (h : Sat x s (fun _ s' => Visits recognises nodes s'.visited)
      (fun e s' => e = .rejected ∧ Visits recognises nodes s'.visited)) :
    FollowsPath recognises nodes (x s) := by
  unfold Sat at h
  cases hx : x s with
  | ok a s' =>
    rw [hx] at h
    exact ⟨rfl, ⟨by simp [Outcome.code], by simp [Outcome.code]⟩, h⟩
  | error e s' =>
    rw [hx] at h
    obtain ⟨rfl, hvisits⟩ := h
    exact ⟨rfl, ⟨by simp [Outcome.code], by simp [Outcome.code]⟩, hvisits⟩
  | fault s' => exact absurd hx (hdef s s')
  | timeout s' =>
    rw [hx] at h
    exact h.elim

end

/-! ## A walk on a copied path -/

section

variable {memory : Nat → UInt8} {info : BootInfo} {nodes rest : List (List UInt8)}

theorem Copied.isEnd (h : Copied memory nodes last info)
    (hin : offset + 2 ≤ info.bootDevicePathSize) :
    devicePathIsEnd info.bootDevicePath offset = devicePathIsEnd memory offset := by
  unfold devicePathIsEnd
  rw [h.bytes offset (by omega), h.bytes (offset + 1) (by omega)]

theorem Copied.length (h : Copied memory nodes last info)
    (hin : offset + 4 ≤ info.bootDevicePathSize) :
    devicePathLength info.bootDevicePath offset = devicePathLength memory offset := by
  unfold devicePathLength
  rw [h.bytes (offset + 2) (by omega), h.bytes (offset + 3) (by omega)]

theorem Copied.nodeBytes (h : Copied memory nodes last info) {length : Nat}
    (hin : offset + length ≤ info.bootDevicePathSize) :
    nodeBytes info.bootDevicePath offset length = nodeBytes memory offset length := by
  unfold Boot.nodeBytes
  refine List.map_congr_left fun i hi => h.bytes _ ?_
  rw [List.mem_range] at hi
  omega

/-- A node that is not the last ends before the last begins. -/
theorem Copied.fitsNode (h : Copied memory nodes last info)
    (hrest : PathNodes memory (offset + devicePathLength memory offset) rest last) :
    offset + devicePathLength memory offset ≤ info.bootDevicePathSize := by
  have hle := hrest.le
  rw [h.size]
  omega

/-- The node that the walk has come to is the next one of the path. -/
theorem Copied.passed (h : Copied memory nodes last info) (hinfo : s.info = info)
    (hrest : PathNodes memory offset rest last)
    (hpassed : Passed s s' offset info.bootDevicePathSize) :
    ∃ node rest', rest = node :: rest' ∧ s'.visited = s.visited ++ [node] ∧
      headerOf node = nodeAt info.bootDevicePath offset ∧
      PathNodes memory (offset + devicePathLength info.bootDevicePath offset) rest' last := by
  subst hinfo
  have hnode : devicePathNodeSize = 4 := rfl
  have hheader := hpassed.header
  have hfits := hpassed.fits
  cases hrest with
  | last hend =>
    have hlive := hpassed.live
    rw [h.isEnd (by omega), hend] at hlive
    cases hlive
  | node hlive hlength hrest =>
    have hsame : devicePathLength s.info.bootDevicePath offset = devicePathLength memory offset :=
      h.length (by omega)
    refine ⟨_, _, rfl, ?_, ?_, by rwa [hsame]⟩
    · rw [hpassed.visited, h.nodeBytes hfits, hsame]
    · rw [← hsame, ← h.nodeBytes hfits]
      generalize s.info.bootDevicePath = bytes at hheader
      unfold headerOf nodeAt Boot.nodeBytes
      simp [show 0 < devicePathLength bytes offset by omega,
        show 1 < devicePathLength bytes offset by omega]

/-- Where the walk finds the end, there is no further node. -/
theorem Copied.atEnd (h : Copied memory nodes last info) (hrest : PathNodes memory offset rest last)
    (hend : info.bootDevicePathSize < offset + devicePathNodeSize ∨
      devicePathIsEnd info.bootDevicePath offset = true) : rest = [] := by
  have hnode : devicePathNodeSize = 4 := rfl
  cases hrest with
  | last _ => rfl
  | node hlive hlength hrest =>
    have hfits := h.fitsNode hrest
    rcases hend with hshort | hend
    · omega
    · rw [h.isEnd (by omega), hlive] at hend
      cases hend

/-- No length on the path is too short for the kernel, or too long. -/
theorem Copied.length_ok (h : Copied memory nodes last info)
    (hrest : PathNodes memory offset rest last)
    (hin : offset + devicePathNodeSize ≤ info.bootDevicePathSize) :
    devicePathNodeSize ≤ devicePathLength info.bootDevicePath offset ∧
      offset + devicePathLength info.bootDevicePath offset ≤ info.bootDevicePathSize := by
  have hnode : devicePathNodeSize = 4 := rfl
  rw [h.length (by omega)]
  have hsize := h.size
  cases hrest with
  | last _ => omega
  | node hlive hlength hrest => exact ⟨hlength, h.fitsNode hrest⟩

variable {α β : Type} {look : Nat → DevicePathNode → β → Walk (LoopStep β α)} {finish : β → α}
  {recognises : DevicePathNode → Bool}

/-- The walk has come to the nodes before `offset`. -/
def Follows (memory : Nat → UInt8) (nodes : List (List UInt8)) (last : Nat) (info : BootInfo)
    (offset : Nat) (s : WalkState) : Prop :=
  s.info = info ∧ ∃ rest, nodes = s.visited ++ rest ∧ PathNodes memory offset rest last

/-- A round on a copied path goes to its next node, stops at a node that is recognised, or finds the
end. -/
theorem Copied.walkNode_sat (h : Copied memory nodes last info) (hlook : LooksAt look recognises)
    {cursor : Nat × β} (hs : Follows memory nodes last info cursor.1 s) :
    Sat (walkNode info.bootDevicePathSize look finish cursor) s
      (fun r s' => match r with
        | .again next => Follows memory nodes last info next.1 s' ∧
            cursor.1 + devicePathNodeSize ≤ next.1 ∧ next.1 ≤ info.bootDevicePathSize
        | .done _ => Visits recognises nodes s'.visited)
      (fun e s' => e = .rejected ∧ Visits recognises nodes s'.visited) := by
  obtain ⟨rfl, rest, hnodes, hrest⟩ := hs
  have hstopped : ∀ s', Passed s s' cursor.1 s.info.bootDevicePathSize →
      recognises (nodeAt s.info.bootDevicePath cursor.1) = true →
      Visits recognises nodes s'.visited := by
    intro s' hpassed hrec
    obtain ⟨node, rest', hcons, hvisited, hheader, -⟩ := h.passed rfl hrest hpassed
    refine .inr ⟨s.visited, node, rest', by rw [hnodes, hcons], hvisited, ?_⟩
    rw [hheader]
    exact hrec
  refine Sat.mono (Boot.walkNode_sat hlook) ?_ ?_
  · rintro (next | result) s₁ ⟨hinside, hround⟩
    · obtain ⟨hpassed, hnext⟩ := hround
      obtain ⟨node, rest', rfl, hvisited, -, hrest'⟩ := h.passed rfl hrest hpassed
      have hheader := hpassed.header
      have hfits := hpassed.fits
      refine ⟨⟨hinside.info, rest', ?_, by rwa [hnext]⟩, by omega, by omega⟩
      rw [hvisited, hnodes, List.append_assoc]
      rfl
    · rcases hround with ⟨hvisited, hend⟩ | ⟨hpassed, hrec⟩
      · rw [h.atEnd hrest hend, List.append_nil] at hnodes
        exact .inl (hvisited.trans hnodes.symm)
      · exact hstopped s₁ hpassed hrec
  · rintro (_ | _ | _) s₁ ⟨-, hfails⟩
    · have hok := h.length_ok hrest hfails.1
      exact absurd hok.1 (not_le.mpr hfails.2)
    · have hok := h.length_ok hrest hfails.1
      exact absurd hok.2 (not_le.mpr hfails.2)
    · exact ⟨rfl, hstopped s₁ hfails.1 hfails.2⟩

/-- A walk on a copied path. -/
theorem Copied.walk_sat (h : Copied memory nodes last info) (hlook : LooksAt look recognises)
    {found : β} (hinfo : s.info = info) (hvisited : s.visited = []) :
    Sat (loop (walkNode info.bootDevicePathSize look finish) pathRounds (0, found)) s
      (fun _ s' => Visits recognises nodes s'.visited)
      (fun e s' => e = .rejected ∧ Visits recognises nodes s'.visited) := by
  refine Sat.loop (fun k cursor s' => Follows memory nodes last info cursor.1 s' ∧
    info.bootDevicePathSize ≤ cursor.1 + 4 * k) ?_ pathRounds 32 (0, found) s (by decide) ?_
  · rintro k cursor s₁ ⟨h₁, hk⟩
    refine Sat.mono (h.walkNode_sat hlook h₁) ?_ fun _ _ h => h
    rintro (next | result) s₂ hround
    · obtain ⟨hfollows, hle, hfits⟩ := hround
      have hnode : devicePathNodeSize = 4 := rfl
      exact ⟨k - 1, by omega, hfollows, by omega⟩
    · exact hround
  · refine ⟨⟨hinfo, nodes, by rw [hvisited]; rfl, h.nodes⟩, ?_⟩
    simpa using h.fits

end

/-! ## The two walks -/

section

variable {node : DevicePathNode}

theorem lookForAtapi_looksAt : LooksAt lookForAtapi DevicePathNode.isAtapi := by
  intro offset node found s
  unfold lookForAtapi
  refine Sat.ite (fun hatapi => ?_) fun _ => Sat.pure ⟨.refl, trivial⟩
  have hlength : 8 ≤ node.length := by
    simp only [DevicePathNode.isAtapi, decide_eq_true_eq] at hatapi
    exact hatapi.2.2
  refine Sat.bind (castBytes_sat offset (offset + node.length) ⟨le_rfl, by omega⟩)
    (fun _ _ h => h.elim) fun _ s₁ h₁ => ?_
  refine Sat.bind (readByte_sat offset (offset + node.length) ⟨by omega, by omega⟩)
    (fun _ _ h => h.elim) fun primarySecondary s₂ h₂ => ?_
  refine Sat.bind (readByte_sat offset (offset + node.length) ⟨by omega, by omega⟩)
    (fun _ _ h => h.elim) fun slaveMaster s₃ h₃ => ?_
  have hseen := (h₁.trans h₂.1).trans h₃.1
  exact Sat.ite (fun _ => Sat.raise ⟨hseen, rfl, hatapi⟩) fun _ => Sat.pure ⟨hseen, hatapi⟩

/-- The nodes that `block_boot_path_to_ahci` takes something from. -/
def DevicePathNode.isHop (node : DevicePathNode) : Bool := node.isPci || node.isSata

theorem lookForSata_looksAt : LooksAt lookForSata DevicePathNode.isHop := by
  intro offset node found s
  unfold lookForSata
  refine Sat.ite (fun hpci => ?_) fun _ => Sat.ite (fun hsata => ?_) fun _ =>
    Sat.pure ⟨.refl, trivial⟩
  · have hlength : 6 ≤ node.length := by
      simp only [DevicePathNode.isPci, decide_eq_true_eq] at hpci
      exact hpci.2.2
    have hrec : node.isHop = true := by simp [DevicePathNode.isHop, hpci]
    refine Sat.ite (fun _ => Sat.raise ⟨.refl, rfl, hrec⟩) fun _ => ?_
    refine Sat.bind (castBytes_sat offset (offset + node.length) ⟨le_rfl, by omega⟩)
      (fun _ _ h => h.elim) fun _ s₁ h₁ => ?_
    refine Sat.bind (readByte_sat offset (offset + node.length) ⟨by omega, by omega⟩)
      (fun _ _ h => h.elim) fun device s₂ h₂ => ?_
    refine Sat.bind (readByte_sat offset (offset + node.length) ⟨by omega, by omega⟩)
      (fun _ _ h => h.elim) fun function s₃ h₃ => ?_
    exact Sat.pure ⟨(h₁.trans h₂.1).trans h₃.1, trivial⟩
  · have hlength : 10 ≤ node.length := by
      simp only [DevicePathNode.isSata, decide_eq_true_eq] at hsata
      exact hsata.2.2
    have hrec : node.isHop = true := by simp [DevicePathNode.isHop, hsata]
    refine Sat.bind (castBytes_sat offset (offset + node.length) ⟨le_rfl, by omega⟩)
      (fun _ _ h => h.elim) fun _ s₁ h₁ => ?_
    refine Sat.bind (readHalf_sat offset (offset + node.length) ⟨by omega, by omega⟩)
      (fun _ _ h => h.elim) fun port s₂ h₂ => ?_
    have hseen₂ := h₁.trans h₂.1
    refine Sat.ite (fun _ => Sat.raise ⟨hseen₂, rfl, hrec⟩) fun _ => ?_
    refine Sat.bind (readHalf_sat offset (offset + node.length) ⟨by omega, by omega⟩)
      (fun _ _ h => h.elim) fun multiplier s₃ h₃ => ?_
    have hseen₃ := hseen₂.trans h₃.1
    refine Sat.ite (fun _ => Sat.raise ⟨hseen₃, rfl, hrec⟩) fun _ => ?_
    refine Sat.bind (readHalf_sat offset (offset + node.length) ⟨by omega, by omega⟩)
      (fun _ _ h => h.elim) fun lun s₄ h₄ => ?_
    have hseen₄ := hseen₃.trans h₄.1
    exact Sat.ite (fun _ => Sat.raise ⟨hseen₄, rfl, hrec⟩) fun _ => Sat.pure ⟨hseen₄, trivial⟩

theorem readByte_defined {offset : Nat} : Defined (readByte offset) :=
  Defined.bind Defined.modify fun _ => Defined.bind Defined.get fun _ => Defined.pure

theorem readHalf_defined {offset : Nat} : Defined (readHalf offset) :=
  Defined.bind readByte_defined fun _ => Defined.bind readByte_defined fun _ => Defined.pure

theorem readNode_defined {offset : Nat} : Defined (readNode offset) := by
  refine Defined.bind Defined.modify fun _ => Defined.bind readHalf_defined fun _ => ?_
  exact Defined.bind readByte_defined fun _ => Defined.bind readByte_defined fun _ => Defined.pure

theorem lookForAtapi_defined {offset : Nat} {found : Unit} :
    Defined (lookForAtapi offset node found) := by
  refine Defined.ite (Defined.bind Defined.modify fun _ => ?_) Defined.pure
  refine Defined.bind readByte_defined fun _ => Defined.bind readByte_defined fun _ => ?_
  exact Defined.ite Defined.raise Defined.pure

theorem lookForSata_defined {offset : Nat} {path : AhciPath} :
    Defined (lookForSata offset node path) := by
  refine Defined.ite (Defined.ite Defined.raise ?_) (Defined.ite ?_ Defined.pure)
  · refine Defined.bind Defined.modify fun _ => ?_
    exact Defined.bind readByte_defined fun _ => Defined.bind readByte_defined fun _ => Defined.pure
  · refine Defined.bind Defined.modify fun _ => Defined.bind readHalf_defined fun _ => ?_
    refine Defined.ite Defined.raise (Defined.bind readHalf_defined fun _ => ?_)
    refine Defined.ite Defined.raise (Defined.bind readHalf_defined fun _ => ?_)
    exact Defined.ite Defined.raise Defined.pure

theorem walkNode_defined {α β : Type} {look : Nat → DevicePathNode → β → Walk (LoopStep β α)}
    {finish : β → α} {pathEnd : Nat} (h : ∀ offset node found, Defined (look offset node found))
    (cursor : Nat × β) : Defined (walkNode pathEnd look finish cursor) := by
  refine Defined.ite Defined.pure (Defined.bind readNode_defined fun node => ?_)
  refine Defined.ite Defined.raise (Defined.ite Defined.raise (Defined.ite Defined.pure ?_))
  refine Defined.bind Defined.modify fun _ => Defined.bind (h _ _ _) fun r => ?_
  cases r with
  | again found => exact Defined.pure
  | done result => exact Defined.pure

theorem blockBootPathToAta_defined : Defined blockBootPathToAta := by
  refine Defined.bind Defined.get fun s => Defined.ite Defined.pure ?_
  exact Defined.loop (walkNode_defined fun _ _ _ => lookForAtapi_defined) _ _

theorem ahciController_defined {pci : PciBus} {path : AhciPath} : Defined (match path.port with
    | none => raise .rejected
    | some port =>
      match blockResolvePciPath pci 0 path.hops with
      | none => raise .rejected
      | some controller => pure (⟨controller, port⟩ : AhciDeviceAddress) : Walk _) := by
  cases path.port with
  | none => exact Defined.raise
  | some port =>
    cases blockResolvePciPath pci 0 path.hops with
    | none => exact Defined.raise
    | some controller => exact Defined.pure

theorem blockBootPathToAhci_defined {pci : PciBus} : Defined (blockBootPathToAhci pci) := by
  refine Defined.bind Defined.get fun s => Defined.ite Defined.raise ?_
  refine Defined.bind (Defined.bind Defined.get fun s => ?_) fun path => ahciController_defined
  exact Defined.loop (walkNode_defined fun _ _ _ => lookForSata_defined) _ _

/-- The controller is looked for without the path. -/
theorem ahciController_sat {pci : PciBus} {path : AhciPath} {s : WalkState} {P : WalkState → Prop}
    (h : P s) : Sat (match path.port with
    | none => raise .rejected
    | some port =>
      match blockResolvePciPath pci 0 path.hops with
      | none => raise .rejected
      | some controller => pure (⟨controller, port⟩ : AhciDeviceAddress) : Walk _) s
      (fun _ s' => P s') (fun e s' => e = .rejected ∧ P s') := by
  cases path.port with
  | none => exact Sat.raise ⟨rfl, h⟩
  | some port =>
    cases blockResolvePciPath pci 0 path.hops with
    | none => exact Sat.raise ⟨rfl, h⟩
    | some controller => exact Sat.pure h

variable {info : BootInfo}

/-- The kernel has not looked at the path yet. -/
def WalkState.start (info : BootInfo) : WalkState := ⟨info, [], [], []⟩

theorem blockBootPathToAta_inside (h : info.bootDevicePathSize ≤ bootinfoDevicePathCapacity) :
    ReadsInside info.bootDevicePathSize (blockBootPathToAta (.start info)) := by
  refine readsInside_of_sat blockBootPathToAta_defined rfl rfl (Sat.get_bind ?_)
  exact Sat.ite (fun _ => Sat.pure .refl) fun _ => walk_inside lookForAtapi_looksAt h

theorem blockBootPathToAhci_inside {pci : PciBus}
    (h : info.bootDevicePathSize ≤ bootinfoDevicePathCapacity) :
    ReadsInside info.bootDevicePathSize (blockBootPathToAhci pci (.start info)) := by
  refine readsInside_of_sat blockBootPathToAhci_defined rfl rfl (Sat.get_bind ?_)
  refine Sat.ite (fun _ => Sat.raise .refl) fun _ => ?_
  have hwalk : Sat ahciWalk (.start info)
      (fun _ s' => Inside (.start info) s' 0 info.bootDevicePathSize)
      (fun _ s' => Inside (.start info) s' 0 info.bootDevicePathSize) :=
    Sat.get_bind (walk_inside lookForSata_looksAt h)
  refine Sat.bind hwalk (fun _ _ h => h) fun path s' hs' => ?_
  exact Sat.mono (ahciController_sat hs') (fun _ _ h => h) fun _ _ h => h.2

variable {memory : Nat → UInt8} {nodes : List (List UInt8)} {last : Nat}

theorem blockBootPathToAta_follows (h : Copied memory nodes last info) :
    FollowsPath DevicePathNode.isAtapi nodes (blockBootPathToAta (.start info)) := by
  refine followsPath_of_sat blockBootPathToAta_defined (Sat.get_bind ?_)
  refine Sat.ite (fun hsmall => Sat.pure ?_) fun _ => h.walk_sat lookForAtapi_looksAt rfl rfl
  rw [h.atEnd h.nodes (.inl (lt_of_lt_of_eq hsmall (Nat.zero_add _).symm))]
  exact .inl rfl

theorem blockBootPathToAhci_follows {pci : PciBus} (h : Copied memory nodes last info) :
    FollowsPath DevicePathNode.isHop nodes (blockBootPathToAhci pci (.start info)) := by
  refine followsPath_of_sat blockBootPathToAhci_defined (Sat.get_bind ?_)
  refine Sat.ite (fun hsmall => Sat.raise ⟨rfl, ?_⟩) fun _ => ?_
  · rw [h.atEnd h.nodes (.inl (lt_of_lt_of_eq hsmall (Nat.zero_add _).symm))]
    exact .inl rfl
  · have hwalk : Sat ahciWalk (.start info)
        (fun _ s' => Visits DevicePathNode.isHop nodes s'.visited)
        (fun e s' => e = .rejected ∧ Visits DevicePathNode.isHop nodes s'.visited) :=
      Sat.get_bind (h.walk_sat lookForSata_looksAt rfl rfl)
    exact Sat.bind hwalk (fun _ _ h => h) fun path s' hs' => ahciController_sat hs'

/-- Both walks of the kernel follow the path that the loader has copied, and stay inside any other
buffer. -/
theorem bootDevicePath_walked (memory : Nat → UInt8) (info : BootInfo) :
    (∀ info', copyBootDevicePath (some memory) info = .ok () info' →
      ∃ nodes last, PathNodes memory 0 nodes last ∧
        FollowsPath DevicePathNode.isAtapi nodes (blockBootPathToAta (.start info')) ∧
        ∀ pci, FollowsPath DevicePathNode.isHop nodes (blockBootPathToAhci pci (.start info'))) ∧
    (info.bootDevicePathSize ≤ bootinfoDevicePathCapacity →
      ReadsInside info.bootDevicePathSize (blockBootPathToAta (.start info)) ∧
      ∀ pci, ReadsInside info.bootDevicePathSize (blockBootPathToAhci pci (.start info))) := by
  constructor
  · intro info' hok
    obtain ⟨nodes, last, hcopied⟩ := copyBootDevicePath_sat.of_ok hok
    refine ⟨nodes, last, hcopied.nodes, blockBootPathToAta_follows hcopied, fun pci => ?_⟩
    exact blockBootPathToAhci_follows hcopied
  · exact fun h => ⟨blockBootPathToAta_inside h, fun pci => blockBootPathToAhci_inside h⟩

/-- A path to the second drive of the first channel. -/
def atapiPath : Nat → UInt8 := fun i => [3, 1, 8, 0, 0, 1, 0, 0, 0x7F, 0xFF, 4, 0].getD i 0

/-- The boot information with that path. -/
def atapiInfo : BootInfo := ⟨12, overlay (fun _ => 0) 0 12 atapiPath⟩

theorem bootDevicePath_walked_atapi :
    copyBootDevicePath (some atapiPath) ⟨0, fun _ => 0⟩ = .ok () atapiInfo ∧
    (∃ nodes last, PathNodes atapiPath 0 nodes last ∧
      FollowsPath DevicePathNode.isAtapi nodes (blockBootPathToAta (.start atapiInfo)) ∧
      ∀ pci, FollowsPath DevicePathNode.isHop nodes (blockBootPathToAhci pci (.start atapiInfo))) ∧
    ReadsInside 12 (blockBootPathToAta (.start atapiInfo)) := by
  have hcopy : copyBootDevicePath (some atapiPath) ⟨0, fun _ => 0⟩ = .ok () atapiInfo := rfl
  refine ⟨hcopy, (bootDevicePath_walked atapiPath ⟨0, fun _ => 0⟩).1 atapiInfo hcopy, ?_⟩
  exact ((bootDevicePath_walked atapiPath atapiInfo).2 (by decide)).1

end

end FunnyOS.Boot
