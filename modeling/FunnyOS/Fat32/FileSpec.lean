import FunnyOS.Fat32.Api
import FunnyOS.Fat32.ClusterSpec

/-!
# File contents along a chain

The bytes of a file are the bytes of its clusters in chain order. `write_data_to_chain`
overwrites a part of them, and the loop of `fat32_read_file` hands exactly the first
`size` of them to its callback.
-/

namespace FunnyOS.Fat32

open Prog

/-- Byte `p` of the clusters `l` put end to end. -/
def chainByte (g : Geometry) (v : Volume) (l : List Nat) (p : Nat) : UInt8 :=
  v.data (l.getD (p / g.clusterSize) 0) (p % g.clusterSize)

/-- The first `size` bytes of the clusters `l`. -/
def chainContent (g : Geometry) (v : Volume) (l : List Nat) (size : Nat) : List UInt8 :=
  (List.range size).map (chainByte g v l)

section

variable {g : Geometry} {v v' : Volume} {l : List Nat} {p size : Nat}

theorem chainByte_congr (hp : p < l.length * g.clusterSize)
    (same : ∀ c ∈ l, v'.data c = v.data c) : chainByte g v' l p = chainByte g v l p := by
  have hlt : p / g.clusterSize < l.length := Nat.div_lt_of_lt_mul (by rwa [Nat.mul_comm])
  have hmem : l.getD (p / g.clusterSize) 0 ∈ l := by
    rw [List.getD_eq_getElem _ _ hlt]
    exact List.getElem_mem hlt
  rw [chainByte, chainByte, same _ hmem]

/-- Where the clusters keep their data, the content is the same. -/
theorem chainContent_congr (hsize : size ≤ l.length * g.clusterSize)
    (same : ∀ c ∈ l, v'.data c = v.data c) :
    chainContent g v' l size = chainContent g v l size := by
  refine List.map_congr_left ?_
  intro p hp
  exact chainByte_congr (by have := List.mem_range.mp hp; omega) same

theorem chainContent_length : (chainContent g v l size).length = size := by
  simp [chainContent]

/-- Only the clusters in front of byte `p` matter for it. -/
theorem chainByte_append {l' : List Nat} (hp : p < l.length * g.clusterSize) :
    chainByte g v (l ++ l') p = chainByte g v l p := by
  have hlt : p / g.clusterSize < l.length := Nat.div_lt_of_lt_mul (by rwa [Nat.mul_comm])
  rw [chainByte, chainByte, List.getD_append _ _ _ _ hlt]

/-- The byte at offset `o` of the cluster behind `pre`. -/
theorem chainByte_at (pre suf : List Nat) {c o : Nat} (ho : o < g.clusterSize) :
    chainByte g v (pre ++ c :: suf) (pre.length * g.clusterSize + o) = v.data c o := by
  have hdiv : (pre.length * g.clusterSize + o) / g.clusterSize = pre.length := by
    rw [Nat.mul_comm, Nat.mul_add_div g.clusterSize_pos, Nat.div_eq_of_lt ho, Nat.add_zero]
  have hmod : (pre.length * g.clusterSize + o) % g.clusterSize = o := by
    rw [Nat.mul_comm, Nat.mul_add_mod, Nat.mod_eq_of_lt ho]
  rw [chainByte, hdiv, hmod, List.getD_eq_getElem _ _ (by simp)]
  simp

/-- Overwriting part of one cluster of the chain. -/
theorem chainByte_setData {pre suf : List Nat} {c : Nat} {buffer : Nat → UInt8}
    (hnd : (pre ++ c :: suf).Nodup) (hp : p < (pre ++ c :: suf).length * g.clusterSize) :
    chainByte g (v.setData g c buffer) (pre ++ c :: suf) p =
      if pre.length * g.clusterSize ≤ p ∧ p < pre.length * g.clusterSize + g.clusterSize
      then buffer (p - pre.length * g.clusterSize)
      else chainByte g v (pre ++ c :: suf) p := by
  have hmod : p % g.clusterSize < g.clusterSize := Nat.mod_lt _ g.clusterSize_pos
  by_cases hin : pre.length * g.clusterSize ≤ p
      ∧ p < pre.length * g.clusterSize + g.clusterSize
  · obtain ⟨o, rfl⟩ := Nat.exists_eq_add_of_le hin.1
    have ho : o < g.clusterSize := by omega
    rw [if_pos hin, chainByte_at _ _ ho, Nat.add_sub_cancel_left]
    exact if_pos ⟨rfl, ho⟩
  · rw [if_neg hin]
    have hlt : p / g.clusterSize < (pre ++ c :: suf).length :=
      Nat.div_lt_of_lt_mul (by rwa [Nat.mul_comm])
    have hne : p / g.clusterSize ≠ pre.length := by
      intro he
      have := Nat.div_add_mod p g.clusterSize
      rw [he, Nat.mul_comm] at this
      exact hin (by omega)
    have hother : (pre ++ c :: suf).getD (p / g.clusterSize) 0 ≠ c := by
      intro he
      rw [List.getD_eq_getElem _ _ hlt] at he
      have hc : (pre ++ c :: suf).get ⟨pre.length, by simp⟩ = c := by simp
      exact hne ((hnd.getElem_inj_iff).mp (he.trans hc.symm))
    simp only [chainByte, Volume.setData, hother, false_and, if_false]

end

section

variable {env : Env} {s : State} {l : List Nat}

/-! ## Writing -/

/-- The bytes from `offset` on replaced by `data`. -/
def overwritten (bytes : Nat → UInt8) (offset : Nat) (data : List UInt8) (p : Nat) : UInt8 :=
  if offset ≤ p ∧ p < offset + data.length then data.getD (p - offset) 0 else bytes p

/-- The volume after `data` has been written at `offset` into the clusters `l`. -/
structure Stored (g : Geometry) (v v' : Volume) (l : List Nat) (offset : Nat)
    (data : List UInt8) : Prop where
  fat : v'.fat = v.fat
  mounted : v'.mounted = v.mounted
  others : ∀ c ∉ l, v'.data c = v.data c
  bytes : ∀ p < l.length * g.clusterSize,
    chainByte g v' l p = overwritten (chainByte g v l) offset data p

theorem Stored.refl {g : Geometry} {v : Volume} {offset : Nat} :
    Stored g v v l offset [] where
  fat := rfl
  mounted := rfl
  others _ _ := rfl
  bytes p _ := by simp [overwritten]

/-- One chunk more: the bytes already written grow by a piece that ends inside a cluster. -/
theorem Stored.step {g : Geometry} {v v₁ v₂ : Volume} {pre suf : List Nat} {cl o offset : Nat}
    {done chunk : List UInt8} {buffer : Nat → UInt8}
    (h : Stored g v v₁ (pre ++ cl :: suf) offset done) (hnd : (pre ++ cl :: suf).Nodup)
    (hpos : pre.length * g.clusterSize + o = offset + done.length)
    (hchunk : o + chunk.length ≤ g.clusterSize)
    (hbuf : ∀ q < g.clusterSize, buffer q = overwritten (v₁.data cl) o chunk q)
    (hv : v₂ = v₁.setData g cl buffer) :
    Stored g v v₂ (pre ++ cl :: suf) offset (done ++ chunk) where
  fat := by rw [hv]; exact h.fat
  mounted := by rw [hv]; exact h.mounted
  others c hc := by
    have hne : c ≠ cl := by
      rintro rfl
      exact hc (by simp)
    rw [hv, ← h.others c hc]
    funext q
    simp [Volume.setData, hne]
  bytes p hp := by
    rw [hv, chainByte_setData hnd hp]
    have hold := h.bytes p hp
    by_cases hin : pre.length * g.clusterSize ≤ p
        ∧ p < pre.length * g.clusterSize + g.clusterSize
    · obtain ⟨q, rfl⟩ := Nat.exists_eq_add_of_le hin.1
      have hq : q < g.clusterSize := by omega
      rw [if_pos hin, Nat.add_sub_cancel_left, hbuf q hq]
      rw [chainByte_at _ _ hq] at hold
      unfold overwritten at hold ⊢
      rw [List.length_append]
      by_cases hnew : o ≤ q ∧ q < o + chunk.length
      · rw [if_pos hnew, if_pos (by omega)]
        rw [List.getD_append_right _ _ _ _ (by omega)]
        congr 1
        omega
      · rw [if_neg hnew, hold]
        by_cases hdone : offset ≤ pre.length * g.clusterSize + q
            ∧ pre.length * g.clusterSize + q < offset + done.length
        · rw [if_pos hdone, if_pos (by omega), List.getD_append _ _ _ _ (by omega)]
        · rw [if_neg hdone, if_neg (by omega)]
    · rw [if_neg hin, hold]
      unfold overwritten
      rw [List.length_append]
      by_cases hdone : offset ≤ p ∧ p < offset + done.length
      · rw [if_pos hdone, if_pos (by omega), List.getD_append _ _ _ _ (by omega)]
      · rw [if_neg hdone, if_neg (by omega)]

/-- `write_data_to_chain` writes all the data where it fits into the chain. It fails where it
does not fit, or where the device fails, after writing the beginning of the data. -/
theorem writeDataToChain_sat {first offset : Nat} {data : List UInt8}
    (h : FileChain env.geometry s.fat first l) :
    Sat (writeDataToChain env first offset data) s
      (fun _ s' => Stored env.geometry (s.volume env.geometry) (s'.volume env.geometry)
        l offset data ∧ (data = [] ∨ offset + data.length ≤ l.length * env.geometry.clusterSize))
      (fun e s' => e = .ioError ∧
        (env.Faulty ∨ l.length * env.geometry.clusterSize < offset + data.length) ∧
        ∃ done, Stored env.geometry (s.volume env.geometry) (s'.volume env.geometry)
          l offset done) := by
  unfold writeDataToChain
  refine Sat.ite (fun hnil => ?_) (fun hne => ?_)
  · subst hnil
    exact Sat.pure ⟨Stored.refl, .inl rfl⟩
  · have hlen : 0 < data.length := List.length_pos_of_ne_nil hne
    have hcs := env.geometry.clusterSize_pos
    rcases h with ⟨rfl, rfl⟩ | ⟨hl, hch⟩
    · rw [if_pos (by decide)]
      exact Sat.raise ⟨rfl, .inr (by simpa using by omega), [], Stored.refl⟩
    have hfirst := (Geometry.isValidDataCluster_iff _).mp (hch.head_valid hl)
    rw [if_neg (by omega)]
    refine Sat.get_bind ?_
    by_cases hidx : offset / env.geometry.clusterSize < l.length
    swap
    · simp only [hch.getClusterAtIndex_end (Nat.not_lt.mp hidx)]
      have := (Nat.le_div_iff_mul_le hcs).mp (Nat.not_lt.mp hidx)
      exact Sat.raise ⟨rfl, .inr (by omega), [], Stored.refl⟩
    simp only [hch.getClusterAtIndex_eq hidx,
      valid_inChain (hch.valid _ (List.getElem_mem hidx)), if_true]
    -- `k` bytes are left to be written from offset `o` of cluster `cl` on
    refine Sat.loop (fun k x st => ∃ pre suf done, l = pre ++ x.1 :: suf ∧
        data = done ++ x.2.2 ∧ k = x.2.2.length ∧ 0 < x.2.2.length ∧
        x.2.1 < env.geometry.clusterSize ∧
        pre.length * env.geometry.clusterSize + x.2.1 = offset + done.length ∧
        Stored env.geometry (s.volume env.geometry) (st.volume env.geometry) l offset done)
      ?_ (data.length + 1) data.length _ s (Nat.lt_succ_self _) ?_
    · rintro k ⟨cl, o, cursor⟩ st ⟨pre, suf, done, rfl, rfl, rfl, hpos, ho, hplace, hst⟩
      simp only at hpos ho hplace ⊢
      have hfat : st.fat = s.fat := hst.fat
      have hcl : env.geometry.isValidDataCluster cl = true := hch.valid cl (by simp)
      have hnd := hch.nodup
      refine Sat.bind (readCluster_sat hcl) (fun _ _ h => h.elim) ?_
      rintro (_ | _) s₁ ⟨hv₁, hbuf⟩
      · refine Sat.raise ⟨rfl, .inl hbuf, done, ?_⟩
        rw [hv₁]
        exact hst
      · simp only [if_true] at hbuf ⊢
        refine Sat.modify_bind ?_
        refine Sat.bind (writeCluster_sat hcl) (fun _ _ h => h.elim) ?_
        rintro (_ | _) s₂ h₂
        · have hv₂ : s₂.volume env.geometry = st.volume env.geometry := h₂.1.trans hv₁
          refine Sat.raise ⟨rfl, .inl h₂.2, done, ?_⟩
          rw [hv₂]
          exact hst
        · simp only [if_true] at h₂ ⊢
          generalize hm : min (env.geometry.clusterSize - o) cursor.length = m at h₂ ⊢
          have htake : (cursor.take m).length = m := by
            rw [List.length_take]; omega
          have hst₂ : Stored env.geometry (s.volume env.geometry) (s₂.volume env.geometry)
              (pre ++ cl :: suf) offset (done ++ cursor.take m) := by
            refine hst.step (o := o) hnd hplace (by omega) ?_ (h₂.trans (by
              rw [State.volume_clusterBuffer, hv₁]))
            intro q hq
            unfold overwritten
            rw [htake]
            by_cases hin : o ≤ q ∧ q < o + m
            · rw [if_pos hin, if_pos hin]
              rw [List.getD_eq_getElem _ _ (by omega), List.getD_eq_getElem _ _ (by omega),
                List.getElem_take]
            · rw [if_neg hin, if_neg hin, hbuf q hq]
          refine Sat.ite (fun hdone => ?_) (fun hmore => ?_)
          · have hall : cursor.take m = cursor := List.take_of_length_le (by omega)
            rw [hall] at hst₂
            refine Sat.pure ⟨hst₂, .inr ?_⟩
            simp only [List.length_append, List.length_cons, Nat.add_mul]
            omega
          · refine Sat.get_bind ?_
            have hfat₂ : s₂.fat = s.fat := hst₂.fat
            have hm' : m = env.geometry.clusterSize - o := by omega
            simp only [hfat₂]
            have hrest := (chain_cons.mp (Linked.suffix hch)).2.2
            cases suf with
            | nil =>
              rw [end_not_inChain hrest]
              refine Sat.raise ⟨rfl, .inr ?_, _, hst₂⟩
              simp only [List.length_append, List.length_singleton, Nat.add_mul]
              omega
            | cons z suf =>
              obtain ⟨hz, hzv, -⟩ := chain_cons.mp hrest
              rw [hz, valid_inChain hzv]
              refine Sat.pure ⟨cursor.length - m, by omega, pre ++ [cl], suf,
                done ++ cursor.take m, by simp, ?_, by simp, ?_, hcs, ?_, hst₂⟩
              · rw [List.append_assoc, List.take_append_drop]
              · rw [List.length_drop]; omega
              · simp only [List.length_append, List.length_singleton, htake, Nat.add_mul]
                omega
    · refine ⟨l.take (offset / env.geometry.clusterSize),
        l.drop (offset / env.geometry.clusterSize + 1), [], ?_, rfl, rfl, hlen,
        Nat.mod_lt _ hcs, ?_, Stored.refl⟩
      · rw [List.getElem_cons_drop, List.take_append_drop]
      · rw [List.length_take, Nat.min_eq_left (Nat.le_of_lt hidx), Nat.mul_comm]
        exact Nat.div_add_mod _ _

/-! ## Reading -/

/-- What a callback that may say no makes of a list of pieces: the context, `none` where the
callback has stopped the walk. -/
def feed {κ β : Type} (callback : κ → β → κ × Bool) : κ → List β → Option κ
  | context, [] => some context
  | context, b :: rest =>
    if (callback context b).2 then feed callback (callback context b).1 rest else none

/-- The rest of a chain that is being read: its clusters, or none of a file without any. -/
def FileChainEnd (g : Geometry) (fat : Nat → Nat) (c : Nat) (l : List Nat) : Prop :=
  (l = [] ∧ c = 0) ∨ Chain g fat c l

/-- The pieces that the loop of `fat32_read_file` hands out, one for each cluster. -/
def fileChunks (g : Geometry) (v : Volume) : List Nat → Nat → List (List UInt8)
  | [], _ => []
  | c :: l, size =>
    if size = 0 then []
    else (List.range (min g.clusterSize size)).map (v.data c)
      :: fileChunks g v l (size - min g.clusterSize size)

theorem fileChunks_zero {g : Geometry} {v : Volume} : fileChunks g v l 0 = [] := by
  cases l <;> rfl

theorem chainContent_cons {g : Geometry} {v : Volume} {c size : Nat} :
    chainContent g v (c :: l) size = (List.range (min g.clusterSize size)).map (v.data c)
      ++ chainContent g v l (size - min g.clusterSize size) := by
  have hsplit : size = min g.clusterSize size + (size - min g.clusterSize size) := by omega
  conv_lhs => rw [chainContent, hsplit, List.range_add, List.map_append, List.map_map]
  congr 1
  · refine List.map_congr_left ?_
    intro p hp
    have hp' : p < g.clusterSize := by have := List.mem_range.mp hp; omega
    have := chainByte_at (g := g) (v := v) [] l (c := c) hp'
    simpa using this
  · refine List.map_congr_left ?_
    intro p hp
    have hp' := List.mem_range.mp hp
    have hmin : min g.clusterSize size = g.clusterSize := by omega
    simp only [Function.comp, hmin, chainByte, Nat.add_div_left _ g.clusterSize_pos,
      Nat.add_mod_left, List.getD_cons_succ]

/-- The loop of `fat32_read_file`: it succeeds where the chain is long enough, the callback
takes all the pieces and the device does not fail. -/
theorem readChunks_sat {κ : Type} {first size : Nat} {callback : κ → List UInt8 → κ × Bool}
    {context : κ} (h : FileChain env.geometry s.fat first l) :
    Sat (readChunks env first size callback context) s
      (fun a s' => s'.volume env.geometry = s.volume env.geometry ∧
        size ≤ l.length * env.geometry.clusterSize ∧
        feed callback context (fileChunks env.geometry (s.volume env.geometry) l size) = some a)
      (fun e s' => s'.volume env.geometry = s.volume env.geometry ∧ e = .ioError ∧
        (feed callback context (fileChunks env.geometry (s.volume env.geometry) l size) = none
          ∨ l.length * env.geometry.clusterSize < size ∨ env.Faulty)) := by
  have hcs := env.geometry.clusterSize_pos
  refine Sat.loop (fun k x st => k = x.2.1 ∧
    st.volume env.geometry = s.volume env.geometry ∧
    ∃ l', FileChainEnd env.geometry s.fat x.1 l' ∧
      (size ≤ l.length * env.geometry.clusterSize ↔
        x.2.1 ≤ l'.length * env.geometry.clusterSize) ∧
      feed callback x.2.2 (fileChunks env.geometry (s.volume env.geometry) l' x.2.1)
        = feed callback context (fileChunks env.geometry (s.volume env.geometry) l size))
    ?_ (size + 1) size _ s (Nat.lt_succ_self _) ⟨rfl, rfl, l, ?_, Iff.rfl, rfl⟩
  swap
  · rcases h with ⟨rfl, rfl⟩ | ⟨-, hch⟩
    · exact .inl ⟨rfl, rfl⟩
    · exact .inr hch
  rintro remaining ⟨cl, _, ctx⟩ st ⟨rfl, hv, l', hch, hlen, hfeed⟩
  simp only at hch hlen hfeed ⊢
  rw [← hfeed]
  by_cases h0 : remaining = 0
  · subst h0
    rw [if_neg (by simp), if_pos rfl, fileChunks_zero]
    exact Sat.pure ⟨hv, hlen.mpr (Nat.zero_le _), rfl⟩
  · cases l' with
    | nil =>
      have hend : inChain cl = false := by
        rcases hch with ⟨-, rfl⟩ | hch
        · rfl
        · exact end_not_inChain hch
      rw [if_neg (by simp [hend]), if_neg h0]
      refine Sat.raise ⟨hv, rfl, .inr (.inl ?_)⟩
      simp only [List.length_nil, Nat.zero_mul] at hlen
      omega
    | cons x l' =>
    obtain ⟨rfl, hx, hrest⟩ := chain_cons.mp (hch.resolve_left (by simp))
    rw [if_pos ⟨Nat.pos_of_ne_zero h0, valid_inChain hx⟩]
    refine Sat.bind (readCluster_sat hx) (fun _ _ h => h.elim) ?_
    rintro (_ | _) s₁ ⟨hv₁, hbuf⟩
    · exact Sat.raise ⟨hv₁.trans hv, rfl, .inr (.inr hbuf)⟩
    · simp only [if_true] at hbuf ⊢
      refine Sat.get_bind ?_
      have hpiece : (List.range (min env.geometry.clusterSize remaining)).map s₁.clusterBuffer
          = (List.range (min env.geometry.clusterSize remaining)).map
            ((s.volume env.geometry).data cl) := by
        refine List.map_congr_left ?_
        intro o ho
        have := List.mem_range.mp ho
        rw [hbuf o (by omega), hv]
      have hfat₁ : s₁.fat = s.fat := congrArg Volume.fat (hv₁.trans hv)
      simp only [hpiece, hfat₁, fileChunks, if_neg h0, feed]
      generalize callback ctx _ = answer
      obtain ⟨ctx', goOn⟩ := answer
      cases goOn with
      | false => exact Sat.raise ⟨hv₁.trans hv, rfl, .inl rfl⟩
      | true =>
        rw [List.length_cons, Nat.add_mul] at hlen
        refine Sat.pure ⟨remaining - min env.geometry.clusterSize remaining, by omega, rfl,
          hv₁.trans hv, l', .inr hrest, ?_, rfl⟩
        simp only
        omega

end

end FunnyOS.Fat32
