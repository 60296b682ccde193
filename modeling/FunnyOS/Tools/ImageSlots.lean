import FunnyOS.Fat32.Listing
import FunnyOS.Tools.ImageTree

/-!
# The slots of a directory in the image

`pack_dir_entry` read by the kernel. The slots that the tool writes for a directory are `.` and
`..`, except in the root, and one entry for each child, which shows its name, kind, size and first
cluster; behind them all slots are empty. Among such slots every name is found.
-/

namespace FunnyOS.Tools

open Fat32

/-! ## Nodes -/

/-- The node is a directory. -/
def ImageNode.isDir : ImageNode → Bool
  | file .. => false
  | dir .. => true

/-- The size that the entry of a node shows. -/
def ImageNode.size : ImageNode → Nat
  | file _ data _ => data.length
  | dir .. => 0

/-- What `fat32_list_dir` says of a node. -/
def nodeInfo (u : UnicodeData) (node : ImageNode) : Fat32NodeInfo :=
  ⟨kernelName u node.name, node.isDir, node.size⟩

/-! ## Slots -/

/-- 32 bytes as a slot. -/
def slotEntry (raw : List UInt8) : DirectoryEntry := ⟨fun i => raw.getD i 0⟩

/-- The slot holds these fields. -/
structure Packed (short : List UInt8) (attr : UInt8) (first size : Nat) (e : DirectoryEntry) :
    Prop where
  name : e.name = short
  attributes : e.attributes = attr
  first : e.entryFirstCluster = first
  size : e.size = size

/-- The slot is the entry of a node. -/
structure ShowsNode (u : UnicodeData) (node : ImageNode) (e : DirectoryEntry) : Prop where
  live : e.kind = .live
  name : ShownAs (kernelName u node.name) e.name
  dir : e.isDirectory = node.isDir
  first : e.entryFirstCluster = node.clusters.headD 0
  size : e.size = node.size

section

variable {u : UnicodeData} {short raw tail : List UInt8} {attr c : UInt8} {first size n : Nat}
  {e : DirectoryEntry} {node : ImageNode}

theorem le16_half : le16 (leByte n 0) (leByte n 1) = n % 2 ^ 16 := by
  simp only [le16, leByte, UInt8.toNat_ofNat']
  omega

/-- The bytes behind the name. -/
def packTail (attr : UInt8) (first size : Nat) : List UInt8 :=
  [attr, 0, 0] ++ packHalf 0 ++ packHalf 0 ++ packHalf 0 ++ packHalf (first / 2 ^ 16 % 2 ^ 16)
    ++ packHalf 0 ++ packHalf 0 ++ packHalf (first % 2 ^ 16)
    ++ [leByte size 0, leByte size 1, leByte size 2, leByte size 3]

theorem packDirEntry_ok (h : packDirEntry short attr first size = .ok raw) :
    size < 2 ^ 32 ∧ raw = short ++ packTail attr first size := by
  unfold packDirEntry at h
  obtain ⟨bytes, hsize, h⟩ := ok_of_bind h
  obtain ⟨hlt, rfl⟩ := packWord_ok hsize
  obtain rfl := Except.ok.inj h
  refine ⟨hlt, ?_⟩
  simp only [packTail, List.append_assoc]

theorem slotEntry_byte (hshort : short.length = 11) (k : Nat) (hk : 11 + k < 32) :
    (slotEntry (short ++ tail)).byte ⟨11 + k, hk⟩ = tail.getD k 0 := by
  change (short ++ tail).getD (11 + k) 0 = tail.getD k 0
  rw [List.getD_append_right _ _ _ _ (by omega), hshort, Nat.add_sub_cancel_left]

theorem slotEntry_name (hshort : short.length = 11) : (slotEntry (short ++ tail)).name = short := by
  refine List.ext_getElem (by simp [DirectoryEntry.name, hshort]) fun i hi hi' => ?_
  simp only [DirectoryEntry.name, List.getElem_ofFn]
  change (short ++ tail).getD i 0 = short[i]
  rw [List.getD_append _ _ _ _ hi', List.getD_eq_getElem _ _ hi']

/-- The kernel reads what the tool has packed. -/
theorem packDirEntry_packed (hshort : short.length = 11) (hfirst : first < 2 ^ 32)
    (h : packDirEntry short attr first size = .ok raw) :
    raw.length = 32 ∧ Packed short attr first size (slotEntry raw) := by
  obtain ⟨hsize, rfl⟩ := packDirEntry_ok h
  have hbyte : ∀ k (hk : 11 + k < 32),
      (slotEntry (short ++ packTail attr first size)).byte ⟨11 + k, hk⟩
        = (packTail attr first size).getD k 0 := slotEntry_byte hshort
  have hlength : (short ++ packTail attr first size).length = 32 := by
    rw [List.length_append, hshort]
    rfl
  refine ⟨hlength, slotEntry_name hshort, hbyte 0 (by decide), ?_, ?_⟩
  · have hhigh : le16 ((slotEntry (short ++ packTail attr first size)).byte 20)
        ((slotEntry (short ++ packTail attr first size)).byte 21) = first / 2 ^ 16 % 2 ^ 16 := by
      rw [show (20 : Fin 32) = ⟨11 + 9, by decide⟩ from rfl,
        show (21 : Fin 32) = ⟨11 + 10, by decide⟩ from rfl, hbyte, hbyte]
      exact le16_half.trans (Nat.mod_mod _ _)
    have hlow : le16 ((slotEntry (short ++ packTail attr first size)).byte 26)
        ((slotEntry (short ++ packTail attr first size)).byte 27) = first % 2 ^ 16 := by
      rw [show (26 : Fin 32) = ⟨11 + 15, by decide⟩ from rfl,
        show (27 : Fin 32) = ⟨11 + 16, by decide⟩ from rfl, hbyte, hbyte]
      exact le16_half.trans (Nat.mod_mod _ _)
    rw [DirectoryEntry.entryFirstCluster, hhigh, hlow]
    omega
  · rw [DirectoryEntry.size, show (28 : Fin 32) = ⟨11 + 17, by decide⟩ from rfl,
      show (29 : Fin 32) = ⟨11 + 18, by decide⟩ from rfl,
      show (30 : Fin 32) = ⟨11 + 19, by decide⟩ from rfl,
      show (31 : Fin 32) = ⟨11 + 20, by decide⟩ from rfl, hbyte, hbyte, hbyte, hbyte]
    exact le16_word hsize

theorem name0_of_cons (h : e.name = c :: tail) : e.name0 = c := by
  have hhead := congrArg List.head? h
  simpa [DirectoryEntry.name, DirectoryEntry.name0] using hhead

/-- A packed name is an entry. -/
theorem Packed.live (h : Packed short attr first size e) (hok : ShortNameOk short)
    (hattr : attr ≠ attrLfn ∧ attr &&& attrVolumeId = 0) : e.kind = .live := by
  obtain ⟨c, rest, rfl, h0, hdeleted, hdot⟩ := hok.first
  rw [DirectoryEntry.kind_eq_live, name0_of_cons h.name, h.attributes]
  exact ⟨h0, hdeleted, hattr.1, hattr.2, hdot⟩

theorem Packed.special (h : Packed (0x2E :: tail) 0x10 first size e) : e.kind = .special := by
  unfold DirectoryEntry.kind
  rw [name0_of_cons h.name, h.attributes]
  rfl

theorem dotEntry_ok (hfirst : first < 2 ^ 32) (hname : short = dotName ∨ short = dotDotName)
    (h : dotEntry short first = .ok raw) :
    raw.length = 32 ∧ (slotEntry raw).kind = .special ∧ (slotEntry raw).IsDot := by
  unfold dotEntry at h
  rcases hname with rfl | rfl
  · obtain ⟨hlength, hpacked⟩ := packDirEntry_packed (by decide) hfirst h
    refine ⟨hlength, hpacked.special, .inl ?_⟩
    rw [hpacked.name]
    decide
  · obtain ⟨hlength, hpacked⟩ := packDirEntry_packed (by decide) hfirst h
    refine ⟨hlength, hpacked.special, .inr ?_⟩
    rw [hpacked.name]
    decide

theorem childEntry_ok (hu : u.Uppercase) (hclusters : ∀ c ∈ node.clusters, c < 2 ^ 32)
    (h : childEntry u node = .ok raw) : raw.length = 32 ∧ ShowsNode u node (slotEntry raw) := by
  unfold childEntry at h
  obtain ⟨short, hshort, h⟩ := ok_of_bind h
  have hshown := shownAs_of_shortName11 hu hshort
  cases node with
  | file name data clusters =>
    have hfirst : clusters.headD 0 < 2 ^ 32 := by
      cases clusters with
      | nil => decide
      | cons c rest => exact hclusters c List.mem_cons_self
    obtain ⟨hlength, hpacked⟩ := packDirEntry_packed hshown.ok.length hfirst h
    refine ⟨hlength, hpacked.live hshown.ok (by decide), ?_, ?_, hpacked.first, hpacked.size⟩
    · rw [hpacked.name]
      exact hshown
    · rw [DirectoryEntry.isDirectory, hpacked.attributes]
      rfl
  | dir name children clusters =>
    obtain ⟨cluster, hcluster, h⟩ := ok_of_bind h
    cases clusters with
    | nil => cases hcluster
    | cons c rest =>
      obtain rfl := Except.ok.inj hcluster
      obtain ⟨hlength, hpacked⟩ := packDirEntry_packed hshown.ok.length
        (hclusters c List.mem_cons_self) h
      refine ⟨hlength, hpacked.live hshown.ok (by decide), ?_, ?_, hpacked.first, hpacked.size⟩
      · rw [hpacked.name]
        exact hshown
      · rw [DirectoryEntry.isDirectory, hpacked.attributes]
        rfl

end

/-! ## Directories -/

/-- The slots of a directory: `dots` special ones, an entry for each child, and empty slots. -/
def Lists (u : UnicodeData) (dots : Nat) (children : List ImageNode)
    (es : List DirectoryEntry) : Prop :=
  ∃ front entries n, es = front ++ (entries ++ List.replicate n .zero) ∧ front.length = dots ∧
    (∀ e ∈ front, e.kind = .special ∧ e.IsDot) ∧ List.Forall₂ (ShowsNode u) children entries

/-- The item that an entry without a long name gives. -/
def plainItem (x : DirectoryEntry × Nat) : Item :=
  ⟨x.2, x.1, cString (formatShortName x.1.name), false⟩

section

variable {u : UnicodeData} {dots index : Nat} {children : List ImageNode} {parent : Option Nat}
  {es front entries rest : List DirectoryEntry} {slots : List (List UInt8)} {st : LfnState}
  {clusters : List Nat}

theorem mapM_ok {α β : Type} {f : α → Except String β} {l : List α} {l' : List β}
    (h : l.mapM f = .ok l') : List.Forall₂ (fun a b => f a = .ok b) l l' := by
  induction l generalizing l' with
  | nil =>
    rw [List.mapM_nil] at h
    obtain rfl := Except.ok.inj h
    exact .nil
  | cons a l ih =>
    rw [List.mapM_cons] at h
    obtain ⟨b, hb, h⟩ := ok_of_bind h
    obtain ⟨rest, hrest, h⟩ := ok_of_bind h
    obtain rfl := Except.ok.inj h
    exact .cons hb (ih hrest)

theorem dotEntries_ok (hparent : ∀ d, parent = some d → d < 2 ^ 32)
    (hclusters : ∀ c ∈ clusters, c < 2 ^ 32) (h : dotEntries clusters parent = .ok slots) :
    slots.length = dotCount parent ∧ ∀ raw ∈ slots,
      raw.length = 32 ∧ (slotEntry raw).kind = .special ∧ (slotEntry raw).IsDot := by
  cases parent with
  | none =>
    obtain rfl := Except.ok.inj h
    exact ⟨rfl, fun raw hraw => by cases hraw⟩
  | some d =>
    unfold dotEntries at h
    obtain ⟨first, hfirst, h⟩ := ok_of_bind h
    obtain ⟨dot, hdot, h⟩ := ok_of_bind h
    obtain ⟨dotDot, hdotDot, h⟩ := ok_of_bind h
    obtain rfl := Except.ok.inj h
    cases clusters with
    | nil => cases hfirst
    | cons c rest =>
      obtain rfl := Except.ok.inj hfirst
      refine ⟨rfl, fun raw hraw => ?_⟩
      rcases List.mem_cons.mp hraw with rfl | hraw
      · exact dotEntry_ok (hclusters c List.mem_cons_self) (.inl rfl) hdot
      · obtain rfl := List.mem_singleton.mp hraw
        exact dotEntry_ok (hparent d rfl) (.inr rfl) hdotDot

/-- The slots that the tool writes for a directory. -/
theorem directorySlots_ok (hu : u.Uppercase) (hparent : ∀ d, parent = some d → d < 2 ^ 32)
    (hclusters : ∀ c ∈ clusters, c < 2 ^ 32)
    (hchildren : ∀ child ∈ children, ∀ c ∈ child.clusters, c < 2 ^ 32)
    (h : directorySlots u parent children clusters = .ok slots) :
    slots.length = dotCount parent + children.length ∧ (∀ raw ∈ slots, raw.length = 32) ∧
      ∀ n, Lists u (dotCount parent) children
        (slots.map slotEntry ++ List.replicate n .zero) := by
  unfold directorySlots at h
  obtain ⟨dots, hdots, h⟩ := ok_of_bind h
  obtain ⟨entries, hentries, h⟩ := ok_of_bind h
  obtain rfl := Except.ok.inj h
  obtain ⟨hcount, hspecial⟩ := dotEntries_ok hparent hclusters hdots
  have hshows : List.Forall₂ (fun child raw => raw.length = 32 ∧ ShowsNode u child (slotEntry raw))
      children entries :=
    ((List.forall₂_and_left _ _).mpr ⟨hchildren, mapM_ok hentries⟩).imp fun child raw hok =>
      childEntry_ok hu hok.1 hok.2
  refine ⟨by rw [List.length_append, hcount, hshows.length_eq], fun raw hraw => ?_, fun n => ?_⟩
  · rcases List.mem_append.mp hraw with hraw | hraw
    · exact (hspecial raw hraw).1
    · obtain ⟨k, hk, rfl⟩ := List.getElem_of_mem hraw
      exact (hshows.get (hshows.length_eq ▸ hk) hk).1
  · refine ⟨dots.map slotEntry, entries.map slotEntry, n, ?_, ?_, ?_, ?_⟩
    · rw [List.map_append, List.append_assoc]
    · rw [List.length_map, hcount]
    · intro e he
      obtain ⟨raw, hraw, rfl⟩ := List.mem_map.mp he
      exact (hspecial raw hraw).2
    · exact List.forall₂_map_right_iff.mpr (hshows.imp fun _ _ h => h.2)

/-! ### What the scans see -/

variable (index) in
theorem dirItems_special (hspecial : ∀ e ∈ front, e.kind = .special) (hst : st.Dead) :
    ∃ st', st'.Dead ∧
      dirItems (front ++ rest) index st = dirItems rest (index + front.length) st' := by
  induction front generalizing index st with
  | nil => exact ⟨st, hst, rfl⟩
  | cons e front ih =>
    have hk := hspecial e List.mem_cons_self
    have hdead : (lfnStep st e).Dead := lfnStep_dead (by simp [hk])
    obtain ⟨st', hst', heq⟩ :=
      ih (index + 1) (fun x hx => hspecial x (List.mem_cons_of_mem _ hx)) hdead
    refine ⟨st', hst', ?_⟩
    rw [List.cons_append, dirItems]
    simp only [hk, heq, List.length_cons, Nat.add_assoc, Nat.add_comm 1]

theorem dirItems_live {n : Nat} (hlive : ∀ e ∈ entries, e.kind = .live) (hst : st.Dead) :
    dirItems (entries ++ List.replicate n .zero) index st
      = (entries.zipIdx index).map plainItem := by
  induction entries generalizing index st with
  | nil =>
    refine dirItems_zeros fun e he => ?_
    rw [List.eq_of_mem_replicate he]
    rfl
  | cons e entries ih =>
    have hk := hlive e List.mem_cons_self
    rw [List.cons_append, dirItems, List.zipIdx_cons, List.map_cons]
    simp only [hk]
    rw [hst.decode_eq, hst.not_attached, ih (fun x hx => hlive x (List.mem_cons_of_mem _ hx))
      (lfnStep_dead (by simp [hk]))]
    rfl

/-- Slots without long names are in order. -/
theorem checked_plain {body : List DirectoryEntry}
    (h : ∀ e ∈ body, e.kind = .live ∨ e.kind = .special ∧ e.IsDot) :
    Checked setStep SetOk none body ∧ body.foldl setStep none = none := by
  induction body with
  | nil => exact ⟨trivial, rfl⟩
  | cons e body ih =>
    have hrest := ih fun x hx => h x (List.mem_cons_of_mem _ hx)
    have hstep : setStep none e = none ∧ SetOk none e := by
      rcases h e List.mem_cons_self with hk | ⟨hk, hdot⟩
      · simp [setStep, SetOk, hk]
      · simp [setStep, SetOk, hk, hdot]
    refine ⟨⟨hstep.2, ?_⟩, ?_⟩
    · rw [hstep.1]
      exact hrest.1
    · rw [List.foldl_cons, hstep.1]
      exact hrest.2

theorem Lists.orderly (h : Lists u dots children es) : Orderly es := by
  obtain ⟨front, entries, n, rfl, -, hfront, hentries⟩ := h
  have hplain : ∀ e ∈ front ++ entries, e.kind = .live ∨ e.kind = .special ∧ e.IsDot := by
    intro e he
    rcases List.mem_append.mp he with he | he
    · exact .inr (hfront e he)
    · obtain ⟨k, hk, rfl⟩ := List.getElem_of_mem he
      exact .inl (hentries.get (hentries.length_eq ▸ hk) hk).live
  obtain ⟨hchecked, hend⟩ := checked_plain hplain
  refine ⟨front ++ entries, List.replicate n .zero, by rw [List.append_assoc], hchecked, hend, ?_⟩
  intro e he
  rw [List.eq_of_mem_replicate he]
  rfl

/-- The items of the directory. -/
theorem Lists.items (h : Lists u dots children es) : ∃ entries,
    List.Forall₂ (ShowsNode u) children entries ∧
      itemsOf es = (entries.zipIdx dots).map plainItem := by
  obtain ⟨front, entries, n, rfl, rfl, hfront, hentries⟩ := h
  refine ⟨entries, hentries, ?_⟩
  obtain ⟨st, hst, heq⟩ := dirItems_special 0 (fun e he => (hfront e he).1) LfnState.dead_initial
  have hlive : ∀ e ∈ entries, e.kind = .live := by
    intro e he
    obtain ⟨k, hk, rfl⟩ := List.getElem_of_mem he
    exact (hentries.get (hentries.length_eq ▸ hk) hk).live
  rw [itemsOf, heq, dirItems_live hlive hst, Nat.zero_add]

/-- `fat32_list_dir` reports the children. -/
theorem Lists.infos (h : Lists u dots children es) :
    (itemsOf es).map Item.info = children.map (nodeInfo u) := by
  obtain ⟨entries, hentries, heq⟩ := h.items
  rw [heq, List.map_map]
  clear heq h
  induction hentries generalizing dots with
  | nil => rfl
  | @cons child e children entries hshows _ ih =>
    rw [List.zipIdx_cons, List.map_cons, List.map_cons, ih]
    congr 1
    change (⟨cString (formatShortName e.name), e.isDirectory, e.size⟩ : Fat32NodeInfo) = _
    rw [hshows.name.shown, hshows.dir, hshows.size]
    rfl

/-- Every entry in use is that of a child. -/
theorem Lists.live {i : Nat} {e : DirectoryEntry} (h : Lists u dots children es)
    (he : liveAt es i = some e) :
    ∃ k child, i = dots + k ∧ children[k]? = some child ∧ ShowsNode u child e := by
  have hended := h.orderly.tidy.ended
  obtain ⟨it, hit, rfl, rfl⟩ := (liveAt_iff_item hended).mp he
  obtain ⟨entries, hentries, heq⟩ := h.items
  rw [heq] at hit
  obtain ⟨⟨e, i⟩, hmem, rfl⟩ := List.mem_map.mp hit
  obtain ⟨k, hk, heq'⟩ := List.getElem_of_mem hmem
  rw [List.length_zipIdx] at hk
  rw [List.getElem_zipIdx] at heq'
  obtain ⟨rfl, rfl⟩ := Prod.mk.inj heq'
  have hk' : k < children.length := hentries.length_eq ▸ hk
  exact ⟨k, children[k], rfl, List.getElem?_eq_getElem hk', hentries.get hk' hk⟩

/-! ### Names -/

/-- The names of a directory that the tool accepts differ. -/
theorem checkNames_ok {seen : List (List UInt8)} (h : checkNames u seen children = .ok ()) :
    ∃ shorts,
      List.Forall₂ (fun child short => shortName11 u child.name = .ok short) children shorts ∧
        shorts.Nodup ∧ ∀ short ∈ shorts, short ∉ seen := by
  induction children generalizing seen with
  | nil => exact ⟨[], .nil, List.nodup_nil, fun _ h => by cases h⟩
  | cons child rest ih =>
    rw [checkNames] at h
    obtain ⟨short, hshort, h⟩ := ok_of_bind h
    split at h
    · cases h
    · next hnew =>
      obtain ⟨shorts, hshorts, hnd, hout⟩ := ih h
      refine ⟨short :: shorts, .cons hshort hshorts, List.nodup_cons.mpr ⟨?_, hnd⟩, ?_⟩
      · exact fun hmem => hout short hmem List.mem_cons_self
      · intro x hx
        rcases List.mem_cons.mp hx with rfl | hx
        · exact hnew
        · exact fun hmem => hout x hx (List.mem_cons_of_mem _ hmem)

/-- The names that the kernel shows differ. -/
theorem Lists.unique (hu : u.Uppercase) (hnames : checkNames u [] children = .ok ())
    (h : Lists u dots children es) : UniqueNames es := by
  obtain ⟨shorts, hshorts, hnd, -⟩ := checkNames_ok hnames
  obtain ⟨entries, hentries, heq⟩ := h.items
  have hstored : entries.map DirectoryEntry.name = shorts := by
    clear heq hnames hnd h
    induction hentries generalizing shorts with
    | nil =>
      cases hshorts
      rfl
    | cons hshows _ ih =>
      cases hshorts with
      | cons hshort hshorts =>
        rw [List.map_cons, ih _ hshorts]
        exact congrArg (· :: _) (hshows.name.unique (shownAs_of_shortName11 hu hshort))
  have hshown : ∀ e ∈ entries, ∃ name, ShownAs name e.name := by
    intro e he
    obtain ⟨k, hk, rfl⟩ := List.getElem_of_mem he
    exact ⟨_, (hentries.get (hentries.length_eq ▸ hk) hk).name⟩
  have hpair : entries.Pairwise fun a b => nameEqualsIgnoreCase (cString (formatShortName a.name))
      (cString (formatShortName b.name)) = false := by
    rw [← hstored, List.nodup_iff_pairwise_ne, List.pairwise_map] at hnd
    refine hnd.imp_of_mem fun {a b} ha hb hne => ?_
    obtain ⟨name, hname⟩ := hshown a ha
    obtain ⟨name', hname'⟩ := hshown b hb
    rw [hname.shown, hname'.shown, Bool.eq_false_iff]
    intro hsame
    rw [nameEqualsIgnoreCase, beq_iff_eq, hname.upper, hname'.upper] at hsame
    exact hne ((hsame ▸ hname).unique hname')
  unfold UniqueNames
  rw [heq, List.pairwise_map]
  rw [← List.zipIdx_map_fst dots entries, List.pairwise_map] at hpair
  exact hpair

/-- Every child is found under its name. -/
theorem Lists.lookup_child {k : Nat} {child : ImageNode} (hu : u.Uppercase)
    (hnames : checkNames u [] children = .ok ()) (h : Lists u dots children es)
    (hk : children[k]? = some child) :
    ∃ it, lookup es (kernelName u child.name) = some it ∧ ShowsNode u child it.entry := by
  obtain ⟨entries, hentries, heq⟩ := h.items
  obtain ⟨hlt, rfl⟩ := List.getElem?_eq_some_iff.mp hk
  have hlt' : k < entries.length := hentries.length_eq ▸ hlt
  have hshows : ShowsNode u children[k] entries[k] := hentries.get hlt hlt'
  refine ⟨plainItem (entries[k], dots + k), (h.unique hu hnames).lookup_eq ?_ ?_, hshows⟩
  · rw [heq]
    refine List.mem_map_of_mem (List.mem_iff_getElem.mpr ⟨k, by simpa using hlt', ?_⟩)
    rw [List.getElem_zipIdx]
  · change nameEqualsIgnoreCase (cString (formatShortName entries[k].name)) _ = true
    rw [hshows.name.shown]
    exact beq_self_eq_true _

end

end FunnyOS.Tools
