import FunnyOS.Fat32.Account

/-!
# The content of a file while it is written

`fat32_write_file` first makes the chain of the file fit, then writes the data, then stores
the entry. This module treats the first two steps: `FileWritten` is what they leave for the
third, `FileFailed` how they fail. The number of clusters is computed in 32 bits, so a size close to
`2 ^ 32` counts as no cluster at all; no chain is that long.
-/

namespace FunnyOS.Fat32

open Prog

/-! ## Numbers of clusters -/

section

variable {g : Geometry} {fat : Nat → Nat} {size size' n c first : Nat} {l : List Nat}

theorem clustersForSize_zero : clustersForSize g 0 = 0 := if_pos rfl

theorem clustersForSize_le (h : size ≤ n * g.clusterSize) : clustersForSize g size ≤ n := by
  have hcs := g.clusterSize_pos
  unfold clustersForSize
  split
  · exact Nat.zero_le n
  · have hmod : (size + g.clusterSize - 1) % 2 ^ 32 ≤ size + g.clusterSize - 1 := Nat.mod_le _ _
    refine Nat.le_of_lt_succ ((Nat.div_lt_iff_lt_mul hcs).mpr ?_)
    rw [Nat.succ_mul]
    omega

variable (size) in
/-- The clusters counted for a size hold that many bytes. -/
theorem le_clustersForSize_mul (h : size + g.clusterSize ≤ 2 ^ 32) :
    size ≤ clustersForSize g size * g.clusterSize := by
  have hcs := g.clusterSize_pos
  unfold clustersForSize
  split
  · omega
  · rw [Nat.mod_eq_of_lt (by omega)]
    have hdiv := Nat.div_add_mod (size + g.clusterSize - 1) g.clusterSize
    have hmod := Nat.mod_lt (size + g.clusterSize - 1) hcs
    rw [Nat.mul_comm] at hdiv
    omega

theorem clustersForSize_mono (h : size ≤ size') (h' : size' + g.clusterSize ≤ 2 ^ 32) :
    clustersForSize g size ≤ clustersForSize g size' :=
  clustersForSize_le (Nat.le_trans h (le_clustersForSize_mul _ h'))

/-- A size that no chain can hold counts as no cluster. -/
theorem clustersForSize_oversized (h : 2 ^ 32 < size + g.clusterSize) (hsize : size < 2 ^ 32) :
    clustersForSize g size = 0 := by
  have hcs := g.clusterSize_pos
  have hle := g.clusterSize_le
  unfold clustersForSize
  split
  · rfl
  · rw [Nat.mod_eq_sub_mod (by omega), Nat.mod_eq_of_lt (by omega)]
    exact Nat.div_eq_of_lt (by omega)

/-- A chain holds less than `2 ^ 31` bytes. -/
theorem FileChain.capacity (h : FileChain g fat first l) :
    l.length * g.clusterSize + g.clusterSize ≤ 2 ^ 31 := by
  have hle := g.clusterSize_le
  rcases h with ⟨rfl, -⟩ | ⟨-, hch⟩
  · simp only [List.length_nil]
    omega
  · have hlen := hch.length_lt
    have htot := g.totalClusters_lt
    have : (l.length + 1) * g.clusterSize ≤ 524288 * 4096 :=
      Nat.mul_le_mul (by omega) hle
    rw [Nat.add_mul] at this
    omega

end

/-! ## Success -/

/-- The bytes of a file of which `size` are counted, from the chain `l`. -/
def oldContent (g : Geometry) (v : Volume) (l : List Nat) (oldSize : Nat) (append : Bool) :
    List UInt8 := if append then chainContent g v l oldSize else []

/-- The file with the chain `l` and `oldSize` bytes has been given the chain `new` from `r` on
and `size` bytes. A file so large that none of its clusters is counted gets a new chain
(`base = []`). -/
structure FileWritten (g : Geometry) (v v' : Volume) (l : List Nat) (oldSize : Nat)
    (append : Bool) (data : List UInt8) (base new : List Nat) (r size : Nat) : Prop where
  start : base = l ∨ base = [] ∧ l ≠ [] ∧ clustersForSize g oldSize = 0
  rewritten : Rewritten g v v' base new r
  size_eq : size = (if append then oldSize else 0) + data.length
  first : r = 0 ↔ size = 0
  long : clustersForSize g size ≤ new.length
  exact : l.length = clustersForSize g oldSize → new.length = clustersForSize g size
  content : (append = true → oldSize ≤ l.length * g.clusterSize) →
    size ≤ new.length * g.clusterSize ∧
      chainContent g v' new size = oldContent g v l oldSize append ++ data

/-- How it fails: without space, possibly with a part of the clusters taken; or, for an
impossibly large file, at the end of the chain. -/
inductive FileFailed (g : Geometry) (v v' : Volume) (l : List Nat) (first oldSize newSize : Nat) :
    Fat32Result → Prop
  | noSpace (taken : List Nat) (fresh : l = [] → taken = [])
      (grown : Reallocated g v v' l (l ++ taken) first)
      (full : (freeClusters g v.fat).length
        < clustersForSize g newSize - clustersForSize g oldSize) :
      FileFailed g v v' l first oldSize newSize .noSpace
  | oversized (uncounted : l ≠ [] ∧ clustersForSize g oldSize = 0)
      (fat : ∀ c, v.fat c ≠ 0 → v'.fat c = v.fat c) (preserved : Preserved v v' (· ∈ l))
      (bytes : ∀ p < l.length * g.clusterSize, chainByte g v' l p = chainByte g v l p) :
      FileFailed g v v' l first oldSize newSize .ioError

section

variable {g : Geometry} {v v₁ v' : Volume} {l base new : List Nat} {first r oldSize size : Nat}
  {data : List UInt8}

/-- The data put behind the old content. -/
theorem chainContent_stored {offset : Nat} (hs : Stored g v₁ v' new offset data)
    (hfit : offset + data.length ≤ new.length * g.clusterSize) :
    chainContent g v' new (offset + data.length) = chainContent g v₁ new offset ++ data := by
  refine List.ext_getElem (by simp [chainContent]) fun p hp hp' => ?_
  simp only [chainContent, List.length_map, List.length_range] at hp
  simp only [chainContent, List.getElem_map, List.getElem_range]
  rw [hs.bytes p (by omega)]
  unfold overwritten
  by_cases ho : offset ≤ p
  · rw [if_pos ⟨ho, hp⟩, List.getElem_append_right (by simpa using ho)]
    rw [List.getD_eq_getElem _ _ (by omega)]
    simp
  · rw [if_neg fun h => ho h.1, List.getElem_append_left (by simpa using by omega)]
    simp

/-- The bytes in front of new clusters. -/
theorem chainContent_grown {taken : List Nat} (hr : Reallocated g v v₁ l (l ++ taken) r)
    (h : FileChain g v.fat first l) (hfit : oldSize ≤ l.length * g.clusterSize) :
    chainContent g v₁ (l ++ taken) oldSize = chainContent g v l oldSize := by
  have hdata : ∀ c ∈ l, v₁.data c = v.data c := by
    intro c hc
    have hch := h.chain_of_ne_nil (List.ne_nil_of_mem hc)
    exact hr.data c (hch.fat_ne_zero c hc)
  rw [← chainContent_congr hfit hdata]
  refine List.map_congr_left fun p hp => ?_
  have := List.mem_range.mp hp
  exact chainByte_append (by omega)

theorem GrowthFailed.noSpace_of_reliable {env : Env} {count : Nat} {e : Fat32Result}
    (h : GrowthFailed env v v' l first count e) (hrel : ¬ env.Faulty) :
    e = .noSpace ∧ (freeClusters env.geometry v.fat).length < count ∧
      ∃ taken, (l = [] → taken = []) ∧ Reallocated env.geometry v v' l (l ++ taken) first := by
  rcases h with h | ⟨-, hf, -⟩
  · exact h
  · exact absurd hf hrel

end

/-! ## The two ways to write -/

section

variable {env : Env} {s : State} {l : List Nat} {first oldSize : Nat} {data : List UInt8}

/-- What `ensure_cluster_chain_length` leaves when it fails on a device that works. -/
theorem fileFailed_of_growth {newSize : Nat} {s' : State} {e : Fat32Result} (hrel : ¬ env.Faulty)
    (h : FileChain env.geometry s.fat first l)
    (hfail : ∃ base first', (base = l ∧ first' = first ∨ base = [] ∧ first' = 0) ∧
      GrowthFailed env (s.volume env.geometry) (s'.volume env.geometry) base first'
        (clustersForSize env.geometry newSize - clustersForSize env.geometry oldSize) e) :
    FileFailed env.geometry (s.volume env.geometry) (s'.volume env.geometry) l first oldSize
      newSize e := by
  obtain ⟨base, first', hbase, hg⟩ := hfail
  obtain ⟨rfl, hfull, taken, hnil, hre⟩ := hg.noSpace_of_reliable hrel
  rcases hbase with ⟨rfl, rfl⟩ | ⟨rfl, rfl⟩
  · exact .noSpace taken hnil hre hfull
  · -- no cluster of a new chain was kept, so the volume is as before
    obtain rfl := hnil rfl
    have hfat : (s'.volume env.geometry).fat = s.fat :=
      funext fun c => hre.links.frame c (by simp) (by simp)
    refine .noSpace [] (fun _ => rfl) ⟨?_, hre.data, hre.mounted⟩ hfull
    rw [hfat, List.append_nil]
    rcases h with ⟨rfl, rfl⟩ | ⟨hl, hch⟩
    · exact Relinked.refl_nil
    · exact Relinked.refl hch hl

theorem Ensured.start {g : Geometry} {v v' : Volume} {current required r : Nat}
    {base taken : List Nat} (h : Ensured g v v' l first current required base taken r) :
    base = l ∨ base = [] ∧ l ≠ [] ∧ current = 0 := by
  rcases h.origin with ⟨hb, -⟩ | ⟨hb, hl, h0, -⟩
  · exact .inl hb
  · exact .inr ⟨hb, hl, h0⟩

/-- The steps of `fat32_write_file` that replace the content of a file. -/
theorem overwriteFile_sat {α : Type} {k : Nat → Driver α} {Q : α → State → Prop}
    {E : Fat32Result → State → Prop} (hfuel : env.geometry.totalClusters < env.fuel)
    (hrel : ¬ env.Faulty) (h : FileChain env.geometry s.fat first l)
    (hlong : clustersForSize env.geometry oldSize ≤ l.length)
    (hdata : data.length ≤ 2 ^ 31)
    (hok : ∀ base new r s', FileWritten env.geometry (s.volume env.geometry)
      (s'.volume env.geometry) l oldSize false data base new r data.length → Sat (k r) s' Q E)
    (herr : ∀ e s', FileFailed env.geometry (s.volume env.geometry) (s'.volume env.geometry) l
      first oldSize data.length e → E e s') :
    Sat (do
      let firstCluster ← ensureClusterChainLength env first
        (clustersForSize env.geometry oldSize) (clustersForSize env.geometry data.length)
      let firstCluster ← trimClusterChain env firstCluster
        (clustersForSize env.geometry data.length)
      if ← flushFat env then do
        writeDataToChain env firstCluster 0 data
        k firstCluster
      else raise .ioError) s Q E := by
  have hle := env.geometry.clusterSize_le
  refine Sat.bind (ensureClusterChainLength_sat hfuel h hlong)
    (fun e s' hf => herr e s' (fileFailed_of_growth hrel h hf)) ?_
  rintro r₁ s₁ ⟨base, taken, hens⟩
  have htaken := hens.length
  have hre₁ := hens.realloc
  have hbase' := hens.start
  have hreq : clustersForSize env.geometry data.length ≤ (base ++ taken).length := by
    rw [List.length_append]
    rcases hbase' with rfl | ⟨rfl, -, h0⟩ <;> omega
  refine Sat.bind (trimClusterChain_sat hfuel hre₁.fileChain hreq) (fun _ _ h => h.elim) ?_
  intro r s₂ hre₂
  generalize hnew : (base ++ taken).take (clustersForSize env.geometry data.length) = new at hre₂
  have hlen : new.length = clustersForSize env.geometry data.length := by
    rw [← hnew, List.length_take]
    omega
  have hfit : data.length ≤ new.length * env.geometry.clusterSize := by
    rw [hlen]
    exact le_clustersForSize_mul _ (by omega)
  refine Sat.bind flushFat_sat (fun _ _ h => h.elim) ?_
  rintro (_ | _) s₃ ⟨hv₃, hflush⟩
  · exact absurd (hflush rfl) hrel
  have hfc : FileChain env.geometry s₃.fat r new := by
    have : s₃.fat = s₂.fat := congrArg Volume.fat hv₃
    rw [this]
    exact hre₂.fileChain
  simp only [if_true]
  refine Sat.bind (writeDataToChain_sat hfc) ?_ ?_
  · rintro e s₄ ⟨-, hf | hover, -⟩
    · exact absurd hf hrel
    · omega
  · rintro ⟨⟩ s₄ ⟨hs, -⟩
    rw [hv₃] at hs
    refine hok base new r s₄ ⟨hbase', (hre₁.rewritten.trans hre₂.rewritten).store hs, by simp, ?_,
      by rw [hlen], fun _ => hlen, fun _ => ⟨hfit, ?_⟩⟩
    · rw [← hfc.eq_nil_iff]
      constructor
      · rintro rfl
        simpa using hfit
      · intro h0
        rw [h0, clustersForSize_zero] at hlen
        exact List.length_eq_zero_iff.mp hlen
    · have := chainContent_stored hs (by simpa using hfit)
      simpa [oldContent, chainContent] using this

/-- Writing behind the end of the chain of an impossibly large file changes nothing. -/
theorem fileFailed_of_oversized {g : Geometry} {v v₁ v' : Volume} {required newSize offset r : Nat}
    {base taken : List Nat} {done : List UInt8} (h : FileChain g v.fat first l) (hl : l ≠ [])
    (h0 : clustersForSize g oldSize = 0)
    (hens : Ensured g v v₁ l first (clustersForSize g oldSize) required base taken r)
    (hs : Stored g v₁ v' (base ++ taken) offset done)
    (hoff : l.length * g.clusterSize ≤ offset) :
    FileFailed g v v' l first oldSize newSize .ioError := by
  rcases hens.origin with ⟨rfl, -, htaken⟩ | ⟨rfl, -, -, -⟩
  · obtain rfl := (htaken h0).resolve_left hl
    obtain rfl := hens.same rfl
    rw [List.append_nil] at hs
    refine .oversized ⟨hl, h0⟩ (fun c _ => by rw [hs.fat]) hs.preserved fun p hp => ?_
    rw [hs.bytes p hp, overwritten, if_neg (by omega)]
  · rw [List.nil_append] at hs
    have hre := hens.realloc
    rw [List.nil_append] at hre
    have hw := hre.rewritten.store hs
    refine .oversized ⟨hl, h0⟩ (fun c hc => hw.links.keep (by simp) hc)
      (hw.preserved.mono fun c hc => by simp at hc) fun p hp => ?_
    have hch := h.chain_of_ne_nil hl
    exact chainByte_congr hp (hw.preserved.chain_data hch (by simp))

/-- The data stands behind the old content. -/
theorem fileWritten_of_append {g : Geometry} {v v₁ v' : Volume} {newSize r : Nat}
    {base taken : List Nat} (h : FileChain g v.fat first l) (hfirst : first = 0 ↔ oldSize = 0)
    (hlong : clustersForSize g oldSize ≤ l.length) (hsize : oldSize < 2 ^ 32)
    (hens : Ensured g v v₁ l first (clustersForSize g oldSize) (clustersForSize g newSize)
      base taken r)
    (hnew : (oldSize + data.length) % 2 ^ 32 = newSize)
    (hlen : clustersForSize g newSize ≤ (base ++ taken).length)
    (hs : Stored g v₁ v' (base ++ taken) oldSize data)
    (hfit : data = [] ∨ oldSize + data.length ≤ (base ++ taken).length * g.clusterSize) :
    FileWritten g v v' l oldSize true data base (base ++ taken) r newSize := by
  have hfc := hens.realloc.fileChain
  have hcap := hfc.capacity
  have hnewSize : newSize = oldSize + data.length := by
    rcases hfit with rfl | hfit
    · rw [← hnew]
      exact Nat.mod_eq_of_lt hsize
    · rw [← hnew]
      exact Nat.mod_eq_of_lt (by omega)
  refine ⟨hens.start, hens.realloc.rewritten.store hs, by simpa using hnewSize, ?_, hlen, ?_, ?_⟩
  · rw [← hfc.eq_nil_iff]
    constructor
    · intro hnil
      obtain ⟨rfl, rfl⟩ := List.append_eq_nil_iff.mp hnil
      rcases hens.origin with ⟨hl, -⟩ | ⟨-, -, h0, hpos⟩
      · have hold := hfirst.mp (h.eq_nil_iff.mp hl.symm)
        rcases hfit with rfl | hfit
        · simpa [hold] using hnewSize
        · simp only [List.append_nil, List.length_nil] at hfit
          omega
      · have hlength := hens.length
        simp only [List.length_nil] at hlength
        omega
    · intro h0
      have hold : oldSize = 0 := by omega
      have hl := h.eq_nil_iff.mpr (hfirst.mpr hold)
      have hlength := hens.length
      rw [h0, clustersForSize_zero] at hlength
      rcases hens.start with rfl | ⟨-, hne, -⟩
      · rw [hl, List.length_eq_zero_iff.mp (hlength.trans (Nat.zero_sub _)), List.append_nil]
      · exact absurd hl hne
  · intro hexact
    have hmono : clustersForSize g oldSize ≤ clustersForSize g newSize := by
      rcases hfit with rfl | hfit
      · exact le_of_eq (by rw [hnewSize]; rfl)
      · exact clustersForSize_mono (by omega) (by omega)
    rw [List.length_append, hens.length]
    rcases hens.start with rfl | ⟨rfl, -, h0⟩
    · omega
    · simp [h0]
  · intro hold
    have hold := hold rfl
    obtain rfl : base = l := by
      rcases hens.start with hb | ⟨-, hne, h0⟩
      · exact hb
      · have hcap' := h.capacity
        have hfits := le_clustersForSize_mul (g := g) oldSize (by omega)
        rw [h0, Nat.zero_mul, Nat.le_zero] at hfits
        exact absurd (h.eq_nil_iff.mpr (hfirst.mpr hfits)) hne
    have hfit' : oldSize + data.length ≤ (base ++ taken).length * g.clusterSize := by
      rcases hfit with rfl | hfit
      · rw [List.length_append, Nat.add_mul]
        simp only [List.length_nil]
        omega
      · exact hfit
    have hr : Reallocated g v v₁ base (base ++ taken) r := hens.realloc
    rw [hnewSize]
    refine ⟨hfit', ?_⟩
    rw [chainContent_stored hs hfit', chainContent_grown hr h hold]
    rfl

/-- The steps of `fat32_write_file` that add to the content of a file. -/
theorem appendFile_sat {α : Type} {k : Nat → Driver α} {Q : α → State → Prop}
    {E : Fat32Result → State → Prop} (hfuel : env.geometry.totalClusters < env.fuel)
    (hrel : ¬ env.Faulty) (h : FileChain env.geometry s.fat first l)
    (hfirst : first = 0 ↔ oldSize = 0)
    (hlong : clustersForSize env.geometry oldSize ≤ l.length) (hsize : oldSize < 2 ^ 32)
    (hdata : data.length ≤ 2 ^ 31)
    (hok : ∀ base new r s', FileWritten env.geometry (s.volume env.geometry)
      (s'.volume env.geometry) l oldSize true data base new r
        ((oldSize + data.length) % 2 ^ 32) → Sat (k r) s' Q E)
    (herr : ∀ e s', FileFailed env.geometry (s.volume env.geometry) (s'.volume env.geometry) l
      first oldSize ((oldSize + data.length) % 2 ^ 32) e → E e s') :
    Sat (do
      let firstCluster ← ensureClusterChainLength env first
        (clustersForSize env.geometry oldSize)
        (clustersForSize env.geometry ((oldSize + data.length) % 2 ^ 32))
      if ← flushFat env then do
        writeDataToChain env firstCluster oldSize data
        k firstCluster
      else raise .ioError) s Q E := by
  have hle := env.geometry.clusterSize_le
  have hcap := h.capacity
  generalize hnewSize : (oldSize + data.length) % 2 ^ 32 = newSize at hok herr ⊢
  refine Sat.bind (ensureClusterChainLength_sat hfuel h hlong)
    (fun e s' hf => herr e s' (fileFailed_of_growth hrel h hf)) ?_
  rintro r s₁ ⟨base, taken, hens⟩
  have hcs := env.geometry.clusterSize_pos
  have htaken := hens.length
  have hre := hens.realloc
  have hlen : clustersForSize env.geometry newSize ≤ (base ++ taken).length := by
    rw [List.length_append]
    rcases hens.start with rfl | ⟨rfl, -, h0⟩ <;> omega
  refine Sat.bind flushFat_sat (fun _ _ h => h.elim) ?_
  rintro (_ | _) s₂ ⟨hv₂, hflush⟩
  · exact absurd (hflush rfl) hrel
  have hfc : FileChain env.geometry s₂.fat r (base ++ taken) := by
    have : s₂.fat = s₁.fat := congrArg Volume.fat hv₂
    rw [this]
    exact hre.fileChain
  have hcap' := hfc.capacity
  simp only [if_true]
  refine Sat.bind (writeDataToChain_sat hfc) ?_ ?_
  · -- the data does not fit: the size of the file is beyond every chain
    rintro e s₃ ⟨rfl, hf | hover, done, hs⟩
    · exact absurd hf hrel
    rw [hv₂] at hs
    have hbig : 2 ^ 32 < oldSize + env.geometry.clusterSize := by
      by_contra hsmall
      have hfits := le_clustersForSize_mul (g := env.geometry) oldSize (by omega)
      have hmul := Nat.mul_le_mul_right env.geometry.clusterSize hlong
      have hnew : newSize = oldSize + data.length := by
        rw [← hnewSize]
        exact Nat.mod_eq_of_lt (by omega)
      have hfits' := le_clustersForSize_mul (g := env.geometry) newSize (by omega)
      have := Nat.mul_le_mul_right env.geometry.clusterSize hlen
      omega
    have h0 := clustersForSize_oversized hbig hsize
    have hl : l ≠ [] := by
      rintro rfl
      have := hfirst.mp (h.eq_nil_iff.mp rfl)
      omega
    refine herr _ _ (fileFailed_of_oversized h hl h0 hens hs (by omega))
  · rintro ⟨⟩ s₃ ⟨hs, hfit⟩
    rw [hv₂] at hs
    exact hok base _ r s₃ (fileWritten_of_append h hfirst hlong hsize hens hnewSize hlen hs hfit)

/-! ## Too much data -/

/-- No chain holds more than `2 ^ 31` bytes. -/
theorem writeLarge_sat {α : Type} {k : Driver α} {offset : Nat}
    (h : FileChain env.geometry s.fat first l) (hdata : 2 ^ 31 < data.length) :
    Sat (do
      if ← flushFat env then do
        writeDataToChain env first offset data
        k
      else raise .ioError) s (fun _ _ => False) (fun _ _ => True) := by
  refine Sat.bind flushFat_sat (fun _ _ _ => trivial) ?_
  rintro (_ | _) s₁ ⟨hv, -⟩
  · exact Sat.raise trivial
  have hfat : s₁.fat = s.fat := congrArg Volume.fat hv
  simp only [if_true]
  refine Sat.bind (writeDataToChain_sat (hfat.symm ▸ h)) (fun _ _ _ => trivial) ?_
  rintro ⟨⟩ s₂ ⟨-, hnil | hfit⟩
  · rw [hnil] at hdata
    simp at hdata
  · have hcap := h.capacity
    omega

theorem appendLarge_sat {α : Type} {k : Nat → Driver α} {newSize : Nat}
    (hfuel : env.geometry.totalClusters < env.fuel) (h : FileChain env.geometry s.fat first l)
    (hlong : clustersForSize env.geometry oldSize ≤ l.length) (hdata : 2 ^ 31 < data.length) :
    Sat (do
      let firstCluster ← ensureClusterChainLength env first
        (clustersForSize env.geometry oldSize) (clustersForSize env.geometry newSize)
      if ← flushFat env then do
        writeDataToChain env firstCluster oldSize data
        k firstCluster
      else raise .ioError) s (fun _ _ => False) (fun _ _ => True) := by
  refine Sat.bind (ensureClusterChainLength_sat hfuel h hlong) (fun _ _ _ => trivial) ?_
  rintro r s₁ ⟨base, taken, hens⟩
  exact writeLarge_sat hens.realloc.fileChain hdata

theorem overwriteLarge_sat {α : Type} {k : Nat → Driver α}
    (hfuel : env.geometry.totalClusters < env.fuel) (h : FileChain env.geometry s.fat first l)
    (hlong : clustersForSize env.geometry oldSize ≤ l.length) (hdata : 2 ^ 31 < data.length) :
    Sat (do
      let firstCluster ← ensureClusterChainLength env first
        (clustersForSize env.geometry oldSize) (clustersForSize env.geometry data.length)
      let firstCluster ← trimClusterChain env firstCluster
        (clustersForSize env.geometry data.length)
      if ← flushFat env then do
        writeDataToChain env firstCluster 0 data
        k firstCluster
      else raise .ioError) s (fun _ _ => False) (fun _ _ => True) := by
  refine Sat.bind (ensureClusterChainLength_sat hfuel h hlong) (fun _ _ _ => trivial) ?_
  rintro r₁ s₁ ⟨base, taken, hens⟩
  have hlength := hens.length
  have hreq : clustersForSize env.geometry data.length ≤ (base ++ taken).length := by
    rw [List.length_append]
    rcases hens.start with rfl | ⟨rfl, -, h0⟩ <;> omega
  refine Sat.bind (trimClusterChain_sat hfuel hens.realloc.fileChain hreq) (fun _ _ h => h.elim) ?_
  intro r s₂ hre
  exact writeLarge_sat hre.fileChain hdata

end

end FunnyOS.Fat32
