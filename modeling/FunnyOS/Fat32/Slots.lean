import FunnyOS.Fat32.ClusterSpec
import FunnyOS.Fat32.Directory

/-!
# Directories as lists of slots

A directory is the list of the slots in its clusters, end to end. Reading and writing
slot `i` of a directory is reading and writing element `i` of this list: `Edited` says that
an operation has changed the slots of one directory and nothing else.
-/

namespace FunnyOS.Fat32

open Prog

/-! ## The view -/

/-- The slots of one cluster. -/
def clusterEntries (g : Geometry) (v : Volume) (c : Nat) : List DirectoryEntry :=
  bufferEntries g (v.data c)

/-- The slots of the clusters `l`, end to end. -/
def chainEntries (g : Geometry) (v : Volume) (l : List Nat) : List DirectoryEntry :=
  l.flatMap (clusterEntries g v)

/-- The slots of the directory that starts at cluster `d`. -/
def dirEntries (g : Geometry) (v : Volume) (d : Nat) : List DirectoryEntry :=
  chainEntries g v (clusterChain g v.fat d)

section

variable {g : Geometry} {v v' : Volume} {l l' : List Nat} {c i : Nat}

theorem bufferEntries_length {buffer : Nat → UInt8} :
    (bufferEntries g buffer).length = g.entriesPerCluster := by
  simp [bufferEntries]

theorem bufferEntries_congr {b b' : Nat → UInt8} (h : ∀ o < g.clusterSize, b o = b' o) :
    bufferEntries g b = bufferEntries g b' := by
  refine List.map_congr_left ?_
  intro i hi
  refine DirectoryEntry.ext fun j => ?_
  have hi' := List.mem_range.mp hi
  have hmul := g.entriesPerCluster_mul
  simp only [bufferEntry]
  rw [h _ (by omega)]

@[simp] theorem clusterEntries_length :
    (clusterEntries g v c).length = g.entriesPerCluster := bufferEntries_length

theorem clusterEntries_getElem (hi : i < (clusterEntries g v c).length) :
    (clusterEntries g v c)[i] = bufferEntry (v.data c) i := by
  simp [clusterEntries, bufferEntries]

@[simp] theorem chainEntries_nil : chainEntries g v [] = [] := rfl

@[simp] theorem chainEntries_cons :
    chainEntries g v (c :: l) = clusterEntries g v c ++ chainEntries g v l := rfl

theorem chainEntries_append :
    chainEntries g v (l ++ l') = chainEntries g v l ++ chainEntries g v l' := by
  simp [chainEntries]

theorem chainEntries_length : (chainEntries g v l).length = l.length * g.entriesPerCluster := by
  induction l with
  | nil => simp
  | cons c l ih => simp [ih, Nat.add_mul, Nat.add_comm]

theorem chainEntries_congr (same : ∀ x ∈ l, v'.data x = v.data x) :
    chainEntries g v' l = chainEntries g v l := by
  induction l with
  | nil => rfl
  | cons c l ih =>
    rw [chainEntries_cons, chainEntries_cons, ih (fun x hx => same x (List.mem_cons_of_mem _ hx))]
    simp only [clusterEntries, same c List.mem_cons_self]

theorem dirEntries_eq {d : Nat} (h : Chain g v.fat d l) : dirEntries g v d = chainEntries g v l := by
  rw [dirEntries, h.clusterChain_eq]

/-- A slot number splits into the cluster and the place in it. -/
theorem chainEntries_split (hi : i < (chainEntries g v l).length) :
    i / g.entriesPerCluster < l.length ∧ i % g.entriesPerCluster < g.entriesPerCluster := by
  have hpos : 0 < g.entriesPerCluster := by have := g.entriesPerCluster_ge; omega
  rw [chainEntries_length] at hi
  exact ⟨Nat.div_lt_of_lt_mul (by rwa [Nat.mul_comm]), Nat.mod_lt _ hpos⟩

theorem chainEntries_getElem? (hlt : i / g.entriesPerCluster < l.length) :
    (chainEntries g v l)[i]?
      = some (bufferEntry (v.data l[i / g.entriesPerCluster]) (i % g.entriesPerCluster)) := by
  have hpos : 0 < g.entriesPerCluster := by have := g.entriesPerCluster_ge; omega
  induction l generalizing i with
  | nil => simp at hlt
  | cons c l ih =>
    rw [chainEntries_cons]
    by_cases hi : i < g.entriesPerCluster
    · rw [List.getElem?_append_left (by simpa using hi),
        List.getElem?_eq_getElem (by simpa using hi), clusterEntries_getElem]
      simp [Nat.div_eq_of_lt hi, Nat.mod_eq_of_lt hi]
    · obtain ⟨j, rfl⟩ := Nat.exists_eq_add_of_le (Nat.le_of_not_lt hi)
      have hdiv : (g.entriesPerCluster + j) / g.entriesPerCluster
          = j / g.entriesPerCluster + 1 := Nat.add_div_left _ hpos
      have hmod : (g.entriesPerCluster + j) % g.entriesPerCluster
          = j % g.entriesPerCluster := Nat.add_mod_left _ _
      have hlt' : j / g.entriesPerCluster < l.length := by
        rw [hdiv, List.length_cons] at hlt
        omega
      rw [List.getElem?_append_right (by simp), clusterEntries_length, Nat.add_sub_cancel_left,
        ih hlt']
      simp only [hdiv, hmod, List.getElem_cons_succ]

end

/-! ## Editing slots -/

/-- The slots from `start` on replaced by `new`. -/
def setSpan (es : List DirectoryEntry) (start : Nat) (new : List DirectoryEntry) :
    List DirectoryEntry :=
  es.take start ++ new ++ es.drop (start + new.length)

/-- The directory on the clusters `l` has the slots `es`; nothing else has changed. -/
structure Edited (g : Geometry) (v v' : Volume) (l : List Nat) (es : List DirectoryEntry) :
    Prop where
  fat : v'.fat = v.fat
  mounted : v'.mounted = v.mounted
  entries : chainEntries g v' l = es
  others : ∀ c ∉ l, v'.data c = v.data c

section

variable {g : Geometry} {v v' v'' : Volume} {l : List Nat} {es es' : List DirectoryEntry}
  {e : DirectoryEntry} {start i : Nat} {new : List DirectoryEntry}

theorem Edited.refl : Edited g v v l (chainEntries g v l) := ⟨rfl, rfl, rfl, fun _ _ => rfl⟩

theorem Edited.trans (h : Edited g v v' l es) (h' : Edited g v' v'' l es') :
    Edited g v v'' l es' :=
  ⟨h'.fat.trans h.fat, h'.mounted.trans h.mounted, h'.entries,
    fun c hc => (h'.others c hc).trans (h.others c hc)⟩

theorem setSpan_nil : setSpan es start [] = es := by simp [setSpan]

theorem setSpan_length (h : start + new.length ≤ es.length) :
    (setSpan es start new).length = es.length := by
  simp only [setSpan, List.length_append, List.length_take, List.length_drop]; omega

/-- Writing a span slot by slot. -/
theorem setSpan_cons (h : start < es.length) :
    setSpan (es.set start e) (start + 1) new = setSpan es start (e :: new) := by
  have htake : (es.set start e).take (start + 1) = es.take start ++ [e] := by
    rw [List.set_eq_take_append_cons_drop, if_pos h]
    rw [show es.take start ++ e :: es.drop (start + 1)
        = (es.take start ++ [e]) ++ es.drop (start + 1) by simp]
    rw [List.take_append_of_le_length (by simp; omega), List.take_of_length_le (by simp)]
  have hdrop : (es.set start e).drop (start + 1 + new.length)
      = es.drop (start + 1 + new.length) := by
    rw [List.drop_set, if_pos (by omega)]
  simp only [setSpan, htake, hdrop, List.length_cons]
  rw [show start + (new.length + 1) = start + 1 + new.length by omega]
  simp

/-- A span replaced in a list given by its parts. -/
theorem setSpan_append (pre old post : List DirectoryEntry) (h : new.length = old.length) :
    setSpan (pre ++ old ++ post) pre.length new = pre ++ new ++ post := by
  simp only [setSpan, List.append_assoc, List.take_left', h]
  congr 2
  rw [← List.append_assoc, ← List.length_append, List.drop_left']
  rfl

/-- Writing one slot into the buffer that holds its cluster. -/
theorem edited_of_setData (hnd : l.Nodup) (hi : i < (chainEntries g v l).length)
    {buffer : Nat → UInt8} {c : Nat} (hc : l[i / g.entriesPerCluster]? = some c)
    (hbuf : ∀ o < g.clusterSize, buffer o = v.data c o) :
    Edited g v (v.setData g c (setBufferEntry buffer (i % g.entriesPerCluster) e)) l
      ((chainEntries g v l).set i e) := by
  have hpos : 0 < g.entriesPerCluster := by have := g.entriesPerCluster_ge; omega
  have hmul := g.entriesPerCluster_mul
  refine ⟨rfl, rfl, ?_, ?_⟩
  · refine List.ext_getElem? ?_
    intro j
    by_cases hj : j < l.length * g.entriesPerCluster
    · have hjl : j / g.entriesPerCluster < l.length :=
        Nat.div_lt_of_lt_mul (by rwa [Nat.mul_comm])
      have hjm : j % g.entriesPerCluster < g.entriesPerCluster := Nat.mod_lt _ hpos
      have hj' : j < (chainEntries g v l).length := by rwa [chainEntries_length]
      rw [chainEntries_getElem? hjl, List.getElem?_set]
      obtain ⟨hil, him⟩ := chainEntries_split hi
      rw [List.getElem?_eq_getElem hil] at hc
      obtain rfl := Option.some.inj hc
      by_cases hij : i = j
      · subst hij
        rw [if_pos rfl, if_pos hi]
        congr 1
        refine DirectoryEntry.ext fun k => ?_
        have hk := k.isLt
        simp only [bufferEntry, Volume.setData, setBufferEntry]
        have ho : 32 * (i % g.entriesPerCluster) + k.val < g.clusterSize := by omega
        rw [if_pos ⟨trivial, ho⟩, if_pos (by omega)]
        refine congrArg e.byte (Fin.ext ?_)
        change (32 * (i % g.entriesPerCluster) + k.val) % 32 = k.val
        omega
      · rw [if_neg hij, chainEntries_getElem? hjl]
        congr 1
        refine DirectoryEntry.ext fun k => ?_
        have hk := k.isLt
        simp only [bufferEntry, Volume.setData, setBufferEntry]
        have ho : 32 * (j % g.entriesPerCluster) + k.val < g.clusterSize := by omega
        by_cases hcl : l[j / g.entriesPerCluster] = l[i / g.entriesPerCluster]
        · have hdiv : j / g.entriesPerCluster = i / g.entriesPerCluster :=
            (hnd.getElem_inj_iff).mp hcl
          have hmod : j % g.entriesPerCluster ≠ i % g.entriesPerCluster := by
            intro hm
            have h₁ := Nat.div_add_mod j g.entriesPerCluster
            have h₂ := Nat.div_add_mod i g.entriesPerCluster
            rw [hdiv, hm] at h₁
            exact hij (h₂.symm.trans h₁)
          rw [if_pos ⟨hcl, ho⟩, if_neg (by omega), hbuf _ ho, hcl]
        · rw [if_neg (fun h => hcl h.1)]
    · rw [List.getElem?_eq_none (by rw [chainEntries_length]; omega),
        List.getElem?_eq_none (by rw [List.length_set, chainEntries_length]; omega)]
  · intro x hx
    have hne : x ≠ c := by
      rintro rfl
      exact hx (List.mem_of_getElem? hc)
    funext o
    simp [Volume.setData, hne]

end

/-! ## Single slots -/

section

variable {env : Env} {s : State} {d i : Nat} {l : List Nat}

/-- `read_directory_entry` inside the directory. -/
theorem readDirectoryEntry_sat (h : Chain env.geometry s.fat d l)
    (hi : i < (chainEntries env.geometry (s.volume env.geometry) l).length) :
    Sat (readDirectoryEntry env d i) s
      (fun e s' => s'.volume env.geometry = s.volume env.geometry ∧
        (chainEntries env.geometry (s.volume env.geometry) l)[i]? = some e)
      (fun e s' => s'.volume env.geometry = s.volume env.geometry ∧ e = .ioError ∧
        env.Faulty) := by
  have hpos : 0 < env.geometry.entriesPerCluster := by
    have := env.geometry.entriesPerCluster_ge; omega
  have hmul := env.geometry.entriesPerCluster_mul
  obtain ⟨hlt, hmod⟩ := chainEntries_split hi
  have hc := h.valid _ (List.getElem_mem hlt)
  refine Sat.get_bind ?_
  simp only [h.getClusterAtIndex_eq hlt, valid_inChain hc, Bool.not_true, Bool.false_eq_true,
    if_false]
  refine Sat.bind (readCluster_sat hc) (fun _ _ h => h.elim) ?_
  rintro (_ | _) s₁ ⟨hv, hbuf⟩
  · exact Sat.raise ⟨hv, rfl, hbuf⟩
  · refine Sat.get_bind (Sat.pure ⟨hv, ?_⟩)
    rw [chainEntries_getElem? hlt]
    congr 1
    refine DirectoryEntry.ext fun k => ?_
    have hk := k.isLt
    simp only [if_true] at hbuf
    have ho : 32 * (i % env.geometry.entriesPerCluster) + k.val < env.geometry.clusterSize := by
      omega
    exact (hbuf _ ho).symm

/-- `write_directory_entry` inside the directory. -/
theorem writeDirectoryEntry_sat (h : Chain env.geometry s.fat d l) {e : DirectoryEntry}
    (hi : i < (chainEntries env.geometry (s.volume env.geometry) l).length) :
    Sat (writeDirectoryEntry env d i e) s
      (fun _ s' => Edited env.geometry (s.volume env.geometry) (s'.volume env.geometry) l
        ((chainEntries env.geometry (s.volume env.geometry) l).set i e))
      (fun err s' => s'.volume env.geometry = s.volume env.geometry ∧ err = .ioError ∧
        env.Faulty) := by
  obtain ⟨hlt, hmod⟩ := chainEntries_split hi
  have hc := h.valid _ (List.getElem_mem hlt)
  refine Sat.get_bind ?_
  simp only [h.getClusterAtIndex_eq hlt, valid_inChain hc, Bool.not_true, Bool.false_eq_true,
    if_false]
  refine Sat.bind (readCluster_sat hc) (fun _ _ h => h.elim) ?_
  rintro (_ | _) s₁ ⟨hv, hbuf⟩
  · exact Sat.raise ⟨hv, rfl, hbuf⟩
  · refine Sat.modify_bind ?_
    refine Sat.bind (writeCluster_sat hc) (fun _ _ h => h.elim) ?_
    rintro (_ | _) s₂ h₂
    · exact Sat.raise ⟨h₂.1.trans hv, rfl, h₂.2⟩
    · refine Sat.pure ?_
      simp only [if_true, State.volume_clusterBuffer, hv] at h₂ hbuf
      rw [h₂]
      exact edited_of_setData h.nodup hi (List.getElem?_eq_getElem hlt) hbuf

end

end FunnyOS.Fat32
