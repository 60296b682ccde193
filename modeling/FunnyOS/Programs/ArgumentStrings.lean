import FunnyOS.Lib.Words
import FunnyOS.Programs.Arguments

/-!
# The arguments of a program

The tokens are the command and the words of the line. After each token the buffer holds the tokens
so far, each with its NUL, and `argv` their places, so that a run of the tokenizer is a walk along
the tokens. The program finds the same strings: its buffer is a copy, and its pointers are as far
into it as those of the process are.
-/

namespace FunnyOS.Programs

open Prog

/-! ## Packed strings -/

/-- The strings with their NULs, one behind the other. -/
def pack (tokens : List (List UInt8)) : List UInt8 := tokens.flatMap (· ++ [0])

/-- Where the string with the given number begins. -/
def packStart (tokens : List (List UInt8)) (k : Nat) : Nat := (pack (tokens.take k)).length

/-- The tokens fit into `argv` and the buffer. -/
def TokensFit (tokens : List (List UInt8)) : Prop :=
  tokens.length ≤ processMaxArgs ∧ (tokens.map (·.length + 1)).sum ≤ processArgBufferSize

variable {tokens rest : List (List UInt8)} {token : List UInt8} {k : Nat}

@[simp] theorem pack_nil : pack [] = [] := rfl

@[simp] theorem pack_append : pack (tokens ++ rest) = pack tokens ++ pack rest :=
  List.flatMap_append

@[simp] theorem pack_singleton : pack [token] = token ++ [0] := by simp [pack]

theorem pack_cons : pack (token :: rest) = token ++ 0 :: pack rest := by simp [pack]

theorem length_pack : (pack tokens).length = (tokens.map (·.length + 1)).sum := by
  induction tokens with
  | nil => rfl
  | cons token tokens ih =>
    rw [pack_cons, List.length_append, List.length_cons, ih, List.map_cons, List.sum_cons]
    omega

theorem TokensFit.of_append (h : TokensFit (tokens ++ rest)) : TokensFit tokens := by
  obtain ⟨hargc, hsize⟩ := h
  rw [List.map_append, List.sum_append] at hsize
  rw [List.length_append] at hargc
  exact ⟨by omega, by omega⟩

theorem packStart_append (h : k ≤ tokens.length) :
    packStart (tokens ++ rest) k = packStart tokens k := by
  rw [packStart, packStart, List.take_append_of_le_length h]

theorem packStart_length : packStart (tokens ++ rest) tokens.length = (pack tokens).length := by
  rw [packStart, List.take_left]

/-- The packed strings are the strings before one of them, the string, and what follows it. -/
theorem pack_split (h : k < tokens.length) :
    pack tokens = pack (tokens.take k) ++ (tokens[k] ++ 0 :: pack (tokens.drop (k + 1))) := by
  conv => lhs; rw [← List.take_append_drop k tokens]
  rw [pack_append, List.drop_eq_getElem_cons h, pack_cons]

theorem packStart_add_le (h : k < tokens.length) :
    packStart tokens k + tokens[k].length + 1 ≤ (pack tokens).length := by
  conv => rhs; rw [pack_split h]
  rw [List.length_append, List.length_append, List.length_cons, packStart]
  omega

theorem pack_char (h : k < tokens.length) {i : Nat} (hi : i < tokens[k].length) :
    (pack tokens).getD (packStart tokens k + i) 0 = tokens[k][i] := by
  rw [pack_split h, List.getD_eq_getElem?_getD, List.getElem?_append_right (by
    rw [packStart]
    omega), packStart, Nat.add_sub_cancel_left, List.getElem?_append_left hi,
    List.getElem?_eq_getElem hi, Option.getD_some]

theorem pack_nul (h : k < tokens.length) :
    (pack tokens).getD (packStart tokens k + tokens[k].length) 0 = 0 := by
  conv => lhs; rw [pack_split h]
  rw [List.getD_eq_getElem?_getD, List.getElem?_append_right (by rw [packStart]; omega), packStart,
    Nat.add_sub_cancel_left, List.getElem?_append_right le_rfl, Nat.sub_self]
  rfl

/-! ## The tokenizer -/

/-- A buffer that begins with the given bytes and holds 0 behind them. -/
def bufferOf (bytes : List UInt8) (i : Nat) : UInt8 := bytes.getD i 0

theorem update_bufferOf {bytes : List UInt8} {c : UInt8} :
    Function.update (bufferOf bytes) bytes.length c = bufferOf (bytes ++ [c]) := by
  funext i
  by_cases hi : i = bytes.length
  · rw [hi, Function.update_self, bufferOf, List.getD_eq_getElem?_getD]
    simp
  · rw [Function.update_of_ne hi, bufferOf, bufferOf, List.getD_eq_getElem?_getD,
      List.getD_eq_getElem?_getD]
    rcases Nat.lt_or_gt_of_ne hi with hlt | hgt
    · rw [List.getElem?_append_left hlt]
    · rw [List.getElem?_eq_none (by omega), List.getElem?_eq_none (by simp; omega)]

/-- The state with other contents of the two buffers. -/
def ArgState.withArgs (s : ArgState) (argBuffer : Nat → UInt8) (argv : Nat → Nat) : ArgState :=
  { s with runtime := { s.runtime with argBuffer, argv } }

/-- The pointers to packed strings. -/
def packedArgv (addresses : RuntimeAddresses) (tokens : List (List UInt8)) (k : Nat) : Nat :=
  if k < tokens.length then addresses.argBuffer + packStart tokens k else 0

/-- The state in which the tokens have been packed. -/
def ArgState.packed (s : ArgState) (addresses : RuntimeAddresses) (tokens : List (List UInt8)) :
    ArgState := s.withArgs (bufferOf (pack tokens)) (packedArgv addresses tokens)

variable {s : ArgState} {addresses : RuntimeAddresses} {bytes w cursor : List UInt8}
  {stop : UInt8 → Bool} {argv : Nat → Nat}

theorem storeArg_ok {c : UInt8} (h : bytes.length < processArgBufferSize) :
    storeArg bytes.length c (s.withArgs (bufferOf bytes) argv)
      = .ok () (s.withArgs (bufferOf (bytes ++ [c])) argv) := by
  rw [← update_bufferOf]
  exact if_pos h

/-- A token is copied behind what the buffer holds, as long as its NUL fits too. -/
theorem copyToken_ends (bytes : List UInt8) (hw : ∀ c ∈ w, stop c = false)
    (hcursor : ∀ c l, cursor = c :: l → stop c = true) :
    Ends (copyToken stop (w ++ cursor) bytes.length) (s.withArgs (bufferOf bytes) argv)
      (fun r s' => r = (cursor, (bytes ++ w).length) ∧
        s' = s.withArgs (bufferOf (bytes ++ w)) argv ∧
        (w ≠ [] → (bytes ++ w).length + 1 ≤ processArgBufferSize))
      (fun _ _ => ¬ (bytes ++ w).length + 1 ≤ processArgBufferSize) := by
  induction w generalizing bytes with
  | nil =>
    rw [List.nil_append, List.append_nil]
    cases cursor with
    | nil => exact Ends.pure ⟨rfl, rfl, fun h => absurd rfl h⟩
    | cons c l =>
      rw [copyToken, if_pos (hcursor c l rfl)]
      exact Ends.pure ⟨rfl, rfl, fun h => absurd rfl h⟩
  | cons c w ih =>
    rw [List.cons_append, copyToken, if_neg (Bool.eq_false_iff.mp (hw c List.mem_cons_self))]
    refine Ends.ite (fun hfull => Ends.raise ?_) fun hroom => ?_
    · rw [List.length_append, List.length_cons]
      omega
    · refine Ends.of_bind_ok (storeArg_ok (by omega)) ?_
      have hrest := ih (bytes ++ [c]) fun d hd => hw d (List.mem_cons_of_mem _ hd)
      rw [List.length_append, List.length_singleton, List.append_assoc, List.singleton_append]
        at hrest
      refine Ends.mono hrest (fun r s' h => ⟨h.1, h.2.1, fun _ => ?_⟩) fun _ _ h => h
      cases w with
      | nil =>
        rw [List.length_append, List.length_singleton]
        omega
      | cons d w => exact h.2.2 (List.cons_ne_nil _ _)

theorem update_packedArgv : Function.update (packedArgv addresses tokens) tokens.length
    (addresses.argBuffer + (pack tokens).length) = packedArgv addresses (tokens ++ [token]) := by
  funext k
  by_cases hk : k = tokens.length
  · rw [hk, Function.update_self, packedArgv, packStart_length, if_pos (by simp)]
  · rw [Function.update_of_ne hk, packedArgv, packedArgv, List.length_append, List.length_singleton]
    by_cases hlt : k < tokens.length
    · rw [if_pos hlt, if_pos (by omega), packStart_append hlt.le]
    · rw [if_neg hlt, if_neg (by omega)]

/-- The NUL and the pointer of a token that has been copied. -/
theorem closeToken_ends (tokens : List (List UInt8)) {α : Type} {f : ArgStep α} {Q : α → ArgState → Prop}
    {E : Unit → ArgState → Prop} (hargc : tokens.length < processMaxArgs)
    (hroom : (pack tokens ++ token).length + 1 ≤ processArgBufferSize)
    (h : Ends f (s.packed addresses (tokens ++ [token])) Q E) :
    Ends (do
      storeArg (pack tokens ++ token).length 0
      storeArgv tokens.length (addresses.argBuffer + (pack tokens).length)
      f) (s.withArgs (bufferOf (pack tokens ++ token)) (packedArgv addresses tokens)) Q E := by
  refine Ends.of_bind_ok (storeArg_ok (by omega)) ?_
  have hargv : storeArgv tokens.length (addresses.argBuffer + (pack tokens).length)
      (s.withArgs (bufferOf (pack tokens ++ token ++ [0])) (packedArgv addresses tokens))
      = .ok () (s.packed addresses (tokens ++ [token])) := by
    have hpack : pack tokens ++ token ++ [0] = pack (tokens ++ [token]) := by
      rw [pack_append, pack_singleton, List.append_assoc]
    rw [ArgState.packed, ← update_packedArgv, hpack]
    exact if_pos hargc
  exact Ends.of_bind_ok hargv h

/-- Between the rounds the tokens so far are packed, and the rest of the line holds the others. -/
structure Tokenized (s₀ : ArgState) (addresses : RuntimeAddresses) (all : List (List UInt8))
    (cursor : List UInt8 × Nat × Nat) (s : ArgState) (tokens : List (List UInt8)) : Prop where
  state : s = s₀.packed addresses tokens
  offset : cursor.2.1 = (pack tokens).length
  argc : cursor.2.2 = tokens.length
  all : all = tokens ++ words kIsSpace cursor.1
  fits : TokensFit tokens

theorem not_tokensFit_append (h : ¬ TokensFit (tokens ++ [token])) :
    ¬ TokensFit (tokens ++ token :: rest) := by
  rw [← List.singleton_append, ← List.append_assoc]
  exact fun hfit => h hfit.of_append

/-- A round packs the next token, if it fits. -/
theorem tokenizeWord_ends {s₀ : ArgState} {all : List (List UInt8)}
    {cursor : List UInt8 × Nat × Nat} (h : Tokenized s₀ addresses all cursor s tokens) :
    Ends (tokenizeWord addresses cursor) s
      (fun r s' => match r with
        | .again next => next.1.length < cursor.1.length ∧
            ∃ tokens', Tokenized s₀ addresses all next s' tokens'
        | .done argc => s' = s₀.packed addresses all ∧ argc = all.length ∧ TokensFit all)
      (fun _ _ => ¬ TokensFit all) := by
  obtain ⟨line, offset, argc⟩ := cursor
  obtain ⟨rfl, rfl, rfl, rfl, hfits⟩ := h
  unfold tokenizeWord
  dsimp only
  refine Ends.ite (fun hend => Ends.pure ?_) fun hmore => ?_
  · rw [← words_dropWhile, hend, words_nil, List.append_nil]
    exact ⟨rfl, rfl, hfits⟩
  obtain ⟨a, l, hrest⟩ := List.exists_cons_of_ne_nil hmore
  rw [words_of_dropWhile hrest, hrest]
  generalize htoken : (a :: l).takeWhile (fun b => !kIsSpace b) = token
  generalize hnext : (a :: l).dropWhile (fun b => !kIsSpace b) = next
  have hsplit : token ++ next = a :: l := by
    rw [← htoken, ← hnext]
    exact List.takeWhile_append_dropWhile
  refine Ends.ite (fun hfull => Ends.raise ?_) fun hargc => ?_
  · refine not_tokensFit_append fun hfit => ?_
    have hlength := hfit.1
    rw [List.length_append, List.length_singleton] at hlength
    omega
  have hfree : ∀ c ∈ token, kIsSpace c = false := by
    intro c hc
    rw [← htoken] at hc
    simpa using List.mem_takeWhile_imp hc
  have hstop : ∀ c m, next = c :: m → kIsSpace c = true := by
    intro c m hm
    have hhead := List.head_dropWhile_not (fun b => !kIsSpace b) (l := a :: l)
      (by rw [hnext, hm]; exact List.cons_ne_nil _ _)
    simpa [hnext, hm] using hhead
  have hne : token ≠ [] := by
    have ha : kIsSpace a = false := by
      have hhead := List.head_dropWhile_not kIsSpace (l := line) hmore
      simpa [hrest] using hhead
    rw [← htoken, List.takeWhile_cons_of_pos (by simpa using ha)]
    exact List.cons_ne_nil _ _
  have hshorter : next.length < line.length := by
    have hle := (List.dropWhile_suffix kIsSpace (l := line)).length_le
    rw [hrest, ← hsplit, List.length_append] at hle
    have hpos := List.length_pos_of_ne_nil hne
    omega
  have hlength : (pack (tokens ++ [token])).length = (pack tokens ++ token).length + 1 := by
    rw [pack_append, pack_singleton, ← List.append_assoc, List.length_append, List.length_singleton]
  have hcount : tokens.length + 1 = (tokens ++ [token]).length := by
    rw [List.length_append, List.length_singleton]
  rw [← hsplit]
  refine Ends.bind (copyToken_ends (pack tokens) hfree hstop) (fun _ _ hfull => ?_) ?_
  · refine not_tokensFit_append fun hfit => hfull ?_
    have hsize := hfit.2
    rw [← length_pack, hlength] at hsize
    exact hsize
  · rintro _ s' ⟨rfl, rfl, hroom⟩
    refine closeToken_ends tokens (not_le.mp hargc) (hroom hne) (Ends.pure ⟨hshorter, tokens ++ [token], ?_⟩)
    refine ⟨rfl, hlength.symm, hcount, ?_, ?_, ?_⟩
    · rw [List.append_assoc]
      rfl
    · rw [← hcount]
      omega
    · rw [← length_pack, hlength]
      exact hroom hne

/-- The tokens of a command and a line. -/
def argumentTokens (command : CString) (argumentLine : Option CString) : List (List UInt8) :=
  command.chars :: words kIsSpace (lineChars argumentLine)

/-- What the tokenizer leaves when it returns true. -/
def ArgState.tokenized (s : ArgState) (addresses : RuntimeAddresses)
    (tokens : List (List UInt8)) : ArgState :=
  { s with runtime :=
    { s.runtime with
      info := ⟨tokens.length, addresses.argv, addresses.cwd⟩
      argBuffer := bufferOf (pack tokens)
      argv := packedArgv addresses tokens } }

/-- The tokenizer packs all tokens, if they fit. -/
theorem processTokenizeArgs_ends (addresses : RuntimeAddresses) (s : ArgState) {command : CString}
    (argumentLine : Option CString) (hcommand : command.chars ≠ []) :
    Ends (processTokenizeArgs addresses (some command) argumentLine) s
      (fun _ s' => s' = s.tokenized addresses (argumentTokens command argumentLine) ∧
        TokensFit (argumentTokens command argumentLine))
      (fun _ _ => ¬ TokensFit (argumentTokens command argumentLine)) := by
  unfold processTokenizeArgs argumentTokens
  refine Ends.modify_bind ?_
  dsimp only
  rw [if_neg hcommand]
  generalize lineChars argumentLine = line
  have hstart : ({ s with runtime :=
      { s.runtime with argBuffer := fun _ => 0, argv := fun _ => 0 } } : ArgState)
      = s.withArgs (bufferOf []) (packedArgv addresses []) := by
    have hargv : packedArgv addresses [] = fun _ => 0 := by
      funext k
      exact if_neg (Nat.not_lt_zero k)
    rw [hargv]
    rfl
  rw [hstart]
  have hcopy : Ends (copyToken (fun _ => false) (command.chars ++ []) ([] : List UInt8).length)
      (s.withArgs (bufferOf []) (packedArgv addresses [])) _ _ :=
    copyToken_ends [] (fun _ _ => rfl) fun _ _ h => by cases h
  rw [List.append_nil] at hcopy
  refine Ends.bind hcopy (fun _ _ hfull hfit => hfull ?_) ?_
  · have hsize := hfit.2
    rw [List.map_cons, List.sum_cons] at hsize
    rw [List.nil_append]
    omega
  rintro _ s₁ ⟨rfl, rfl, hroom⟩
  have hroom := hroom hcommand
  refine closeToken_ends [] (by decide) hroom ?_
  have hloop : Ends (loop (tokenizeWord addresses) (line.length + 1)
      (line, (command.chars).length + 1, 1)) (s.packed addresses [command.chars])
      (fun argc s' => s' = s.packed addresses (command.chars :: words kIsSpace line) ∧
        argc = (command.chars :: words kIsSpace line).length ∧
        TokensFit (command.chars :: words kIsSpace line))
      (fun _ _ => ¬ TokensFit (command.chars :: words kIsSpace line)) := by
    refine Ends.loop (fun k cursor s' => cursor.1.length ≤ k ∧ ∃ tokens,
      Tokenized s addresses (command.chars :: words kIsSpace line) cursor s' tokens) ?_
      (line.length + 1) line.length (line, command.chars.length + 1, 1) _ (Nat.lt_succ_self _) ?_
    · rintro k cursor s' ⟨hk, tokens, htokens⟩
      refine Ends.mono (tokenizeWord_ends htokens) ?_ fun _ _ h => h
      rintro (next | argc) s'' h
      · exact ⟨next.1.length, by omega, le_rfl, h.2⟩
      · exact h
    · refine ⟨le_rfl, [command.chars], rfl, ?_, rfl, rfl, by simp, ?_⟩
      · rw [pack_singleton, List.length_append, List.length_singleton]
      · simpa using hroom
  refine Ends.bind hloop (fun _ _ h => h) ?_
  rintro _ s₂ ⟨rfl, rfl, hfit⟩
  exact Ends.modify ⟨rfl, hfit⟩

theorem processTokenizeArgs_ok {s' : ArgState} {command : CString}
    {argumentLine : Option CString} (hcommand : command.chars ≠ [])
    (hrun : processTokenizeArgs addresses (some command) argumentLine s = .ok () s') :
    s' = s.tokenized addresses (argumentTokens command argumentLine) :=
  ((processTokenizeArgs_ends addresses s argumentLine hcommand).of_ok hrun).1

/-! ## The user context -/

/-- The number in 8 bytes of the memory. -/
def readQuad (memory : Nat → UInt8) (address : Nat) : Nat :=
  littleEndian ((List.range 8).map fun i => memory (address + i)) 0 8

theorem readQuad_eq {memory : Nat → UInt8} {address value : Nat}
    (h : ∀ i < 8, memory (address + i) = numberBytes value i) (hvalue : value < 2 ^ 64) :
    readQuad memory address = value := by
  have hlist : (List.range 8).map (fun i => memory (address + i))
      = (List.range 8).map (numberBytes value) :=
    List.map_congr_left fun i hi => h i (List.mem_range.mp hi)
  rw [readQuad, hlist]
  simp [littleEndian, List.range_succ, numberBytes]
  omega

variable {s₁ s₂ : ArgState} {n : Nat}

/-- The buffer and the first `n` pointers have been staged. -/
structure Staged (addresses : RuntimeAddresses) (s s' : ArgState) (n : Nat) : Prop where
  runtime : s'.runtime = s.runtime
  addressSpace : s'.addressSpace = s.addressSpace
  buffer : ∀ i < processArgBufferSize,
    s'.memory (s.addressSpace.stackBase + contextArgBuffer.first + i) = s.runtime.argBuffer i
  argv : ∀ k < n, ∀ i < 8,
    s'.memory (s.addressSpace.stackBase + contextArgv.first + 8 * k + i) =
      numberBytes (s.addressSpace.stackBase + contextArgBuffer.first +
        (s.runtime.argv k - addresses.argBuffer)) i
  outside : ∀ a, ¬ (s.addressSpace.stackBase ≤ a ∧ a < s.addressSpace.stackBase + userContextSize) →
    s'.memory a = s.memory a

theorem storeContext_ok {member : ContextMember} {offset count : Nat} {value : Nat → UInt8}
    (h : offset + count ≤ member.size) : storeContext member offset count value s =
      .ok () (s.write (s.addressSpace.stackBase + member.first + offset) count value) :=
  if_pos h

/-- The pointers of the process point into its buffer. -/
def ArgvInside (addresses : RuntimeAddresses) (s : ArgState) : Prop :=
  s.runtime.info.argc ≤ processMaxArgs ∧ ∀ k < s.runtime.info.argc,
    addresses.argBuffer ≤ s.runtime.argv k ∧
      s.runtime.argv k < addresses.argBuffer + processArgBufferSize

/-- A round stages one more pointer. -/
theorem stageArg_ends (hargv : ArgvInside addresses s) (h : Staged addresses s s₁ n)
    (hn : n < s.runtime.info.argc) : Ends (stageArg addresses n) s₁
      (fun _ s₂ => Staged addresses s s₂ (n + 1)) (fun _ _ => False) := by
  have hmax : n < processMaxArgs := hn.trans_le hargv.1
  obtain ⟨hlow, hhigh⟩ := hargv.2 n hn
  have hargs : processMaxArgs = 8 := rfl
  have hsize : processArgBufferSize = 256 := rfl
  have hcontext : userContextSize = 480 := rfl
  unfold stageArg
  refine Ends.get_bind (Ends.ite (fun hbad => absurd hbad (not_le.mpr hmax)) fun _ => ?_)
  rw [h.runtime, h.addressSpace]
  refine Ends.ite (fun hbad => absurd hbad (not_lt.mpr hlow)) fun _ => ?_
  refine Ends.ite (fun hbad => absurd hbad (by omega)) fun _ => ?_
  dsimp only
  unfold Ends
  rw [storeContext_ok (by dsimp only; omega), h.addressSpace]
  refine ⟨h.runtime, h.addressSpace, fun i hi => ?_, fun k hk i hi => ?_, fun a ha => ?_⟩
  · rw [ArgState.write_outside (by dsimp only; omega)]
    exact h.buffer i hi
  · by_cases hk' : k = n
    · rw [hk', ArgState.write_inside (by dsimp only; omega), Nat.add_sub_cancel_left]
    · rw [ArgState.write_outside (by dsimp only; omega)]
      exact h.argv k (by omega) i hi
  · rw [ArgState.write_outside (by dsimp only; omega)]
    exact h.outside a ha

theorem stageArgs_ends (hargv : ArgvInside addresses s) {m : Nat} (h : Staged addresses s s₁ m)
    (hn : m + n = s.runtime.info.argc) : Ends (stageArgs addresses (List.range' m n)) s₁
      (fun _ s₂ => Staged addresses s s₂ (m + n)) (fun _ _ => False) := by
  induction n generalizing m s₁ with
  | zero => exact Ends.pure h
  | succ n ih =>
    rw [List.range'_succ]
    refine Ends.bind (stageArg_ends hargv h (by omega)) (fun _ _ h => h) fun _ s₂ h₂ => ?_
    rw [← Nat.add_assoc, Nat.add_right_comm]
    exact ih h₂ (by omega)

/-- What a program finds in its context. -/
structure UserContext (addresses : RuntimeAddresses) (s s' : ArgState) : Prop where
  info : s'.runtime.userInfoAddr = s.addressSpace.stackBase
  argc : readQuad s'.memory (s.addressSpace.stackBase + 8) = s.runtime.info.argc
  argvAddr : readQuad s'.memory (s.addressSpace.stackBase + 16) =
    s.addressSpace.stackBase + contextArgv.first
  argv : ∀ k < s.runtime.info.argc,
    readQuad s'.memory (s.addressSpace.stackBase + contextArgv.first + 8 * k) =
      s.addressSpace.stackBase + contextArgBuffer.first +
        (s.runtime.argv k - addresses.argBuffer)
  buffer : ∀ i < processArgBufferSize,
    s'.memory (s.addressSpace.stackBase + contextArgBuffer.first + i) = s.runtime.argBuffer i
  outside : ∀ a, ¬ (s.addressSpace.stackBase ≤ a ∧ a < s.addressSpace.stackBase + userContextSize) →
    s'.memory a = s.memory a

theorem stageInfo_ends (hargv : ArgvInside addresses s)
    (hbase : s.addressSpace.stackBase + userContextSize ≤ 2 ^ 64)
    (h : Staged addresses s s₁ s.runtime.info.argc) :
    Ends stageInfo s₁ (fun _ s₂ => UserContext addresses s s₂) (fun _ _ => False) := by
  have hargs : processMaxArgs = 8 := rfl
  have hsize : processArgBufferSize = 256 := rfl
  have hcontext : userContextSize = 480 := rfl
  have hargc := hargv.1
  unfold stageInfo
  refine Ends.get_bind ?_
  rw [h.addressSpace, h.runtime]
  dsimp only
  refine Ends.of_bind_ok (storeContext_ok (by decide)) ?_
  refine Ends.of_bind_ok (storeContext_ok (by decide)) ?_
  refine Ends.of_bind_ok (storeContext_ok (by decide)) ?_
  refine Ends.of_bind_ok (storeContext_ok (by decide)) ?_
  refine Ends.of_bind_ok (storeContext_ok (by decide)) ?_
  simp only [ArgState.write_addressSpace, h.addressSpace]
  refine Ends.modify ⟨rfl, readQuad_eq (fun i hi => ?_) (by omega),
    readQuad_eq (fun i hi => ?_) (by dsimp only; omega), fun k hk => readQuad_eq (fun i hi => ?_) ?_,
    fun i hi => ?_, fun a ha => ?_⟩
  · dsimp only
    rw [ArgState.write_outside (by omega), ArgState.write_outside (by omega),
      ArgState.write_inside (by omega)]
    congr 1
    omega
  · dsimp only
    rw [ArgState.write_outside (by omega), ArgState.write_inside (by omega)]
    congr 1
    omega
  · dsimp only
    iterate 5 rw [ArgState.write_outside (by omega)]
    exact h.argv k hk i hi
  · have hin := hargv.2 k hk
    dsimp only
    omega
  · dsimp only
    iterate 5 rw [ArgState.write_outside (by omega)]
    exact h.buffer i hi
  · dsimp only
    iterate 5 rw [ArgState.write_outside (by omega)]
    exact h.outside a ha

theorem processStageUserContext_ends (hargv : ArgvInside addresses s)
    (hsize : userContextSize ≤ s.addressSpace.stackSize)
    (hbase : s.addressSpace.stackBase + userContextSize ≤ 2 ^ 64) :
    Ends (processStageUserContext addresses) s (fun _ s' => UserContext addresses s s')
      (fun _ _ => False) := by
  have hcontext : userContextSize = 480 := rfl
  have hpath : pathCapacity = 128 := rfl
  have hbuffer : processArgBufferSize = 256 := rfl
  unfold processStageUserContext
  refine Ends.get_bind (Ends.ite (fun hbad => absurd hsize (not_le.mpr hbad)) fun _ => ?_)
  refine Ends.of_bind_ok (storeContext_ok (by decide)) ?_
  refine Ends.of_bind_ok (storeContext_ok (by decide)) ?_
  refine Ends.of_bind_ok (storeContext_ok (by decide)) ?_
  simp only [ArgState.write_addressSpace]
  rw [List.range_eq_range']
  refine Ends.bind (stageArgs_ends hargv ⟨rfl, rfl, fun i hi => ?_, fun k hk => ?_, fun a ha => ?_⟩
    (Nat.zero_add _)) (fun _ _ h => h) fun _ s₁ h₁ => ?_
  · rw [ArgState.write_inside (by dsimp only; omega)]
    exact congrArg s.runtime.argBuffer (by dsimp only; omega)
  · exact absurd hk (Nat.not_lt_zero k)
  · iterate 3 rw [ArgState.write_outside (by omega)]
  · rw [Nat.zero_add] at h₁
    exact stageInfo_ends hargv hbase h₁

/-! ## The arguments that a program gets -/

/-- What is done between the two functions leaves the arguments and the place of the stack. -/
structure ArgumentsKept (s₁ s₂ : ArgState) : Prop where
  info : s₂.runtime.info = s₁.runtime.info
  argBuffer : s₂.runtime.argBuffer = s₁.runtime.argBuffer
  argv : s₂.runtime.argv = s₁.runtime.argv
  stackBase : s₂.addressSpace.stackBase = processAbiStackBase
  stackSize : s₂.addressSpace.stackSize = processAbiStackSize

/-- The program whose information is at `info` finds the strings `tokens` as its arguments. -/
structure GetsArguments (memory : Nat → UInt8) (info : Nat) (tokens : List (List UInt8)) :
    Prop where
  argc : readQuad memory (info + 8) = tokens.length
  argv : ∀ k (h : k < tokens.length),
    StringAt memory (readQuad memory (readQuad memory (info + 16) + 8 * k)) tokens[k]

theorem UserContext.getsArguments (h : UserContext addresses s s₁) (hfits : TokensFit tokens)
    (hinfo : s.runtime.info.argc = tokens.length)
    (hbuffer : s.runtime.argBuffer = bufferOf (pack tokens))
    (hargv : s.runtime.argv = packedArgv addresses tokens)
    (hnul : ∀ token ∈ tokens, ∀ c ∈ token, c ≠ 0) :
    GetsArguments s₁.memory s.addressSpace.stackBase tokens := by
  refine ⟨h.argc.trans hinfo, fun k hk => ?_⟩
  have hend := packStart_add_le hk
  rw [length_pack] at hend
  have hsize := hfits.2
  have hpointer : readQuad s₁.memory (s.addressSpace.stackBase + contextArgv.first + 8 * k)
      = s.addressSpace.stackBase + contextArgBuffer.first + packStart tokens k := by
    rw [h.argv k (hinfo ▸ hk), hargv, packedArgv, if_pos hk, Nat.add_sub_cancel_left]
  rw [h.argvAddr, hpointer]
  refine ⟨fun i hi => ?_, ?_, hnul _ (List.getElem_mem hk)⟩
  · rw [Nat.add_assoc, h.buffer _ (by omega), hbuffer, bufferOf, pack_char hk hi]
  · rw [Nat.add_assoc, h.buffer _ (by omega), hbuffer, bufferOf, pack_nul hk]

theorem argumentTokens_noNul {command : CString} {argumentLine : Option CString} :
    ∀ token ∈ argumentTokens command argumentLine, ∀ c ∈ token, c ≠ 0 := by
  intro token htoken c hc
  rcases List.mem_cons.mp htoken with rfl | htoken
  · exact command.noNul c hc
  · have hmem := ((mem_words htoken).2 c hc).1
    cases argumentLine with
    | none => exact absurd hmem List.not_mem_nil
    | some line => exact line.noNul c hmem

theorem ArgState.tokenized_argvInside (hfits : TokensFit tokens)
    (hkept : ArgumentsKept (s.tokenized addresses tokens) s₂) : ArgvInside addresses s₂ := by
  rw [ArgvInside, hkept.info, hkept.argv]
  refine ⟨hfits.1, fun k hk => ?_⟩
  have hk : k < tokens.length := hk
  have hend := packStart_add_le hk
  have hsize := hfits.2
  rw [length_pack] at hend
  change addresses.argBuffer ≤ packedArgv addresses tokens k ∧
    packedArgv addresses tokens k < addresses.argBuffer + processArgBufferSize
  rw [packedArgv, if_pos hk]
  omega

/-- The tokenizer returns true exactly if the tokens fit, and the program then gets them. No store
of either function leaves its buffer. -/
theorem processArguments_staged (addresses : RuntimeAddresses) (s : ArgState) (command : CString)
    (argumentLine : Option CString) (hcommand : command.chars ≠ []) :
    (processTokenizeArgs addresses (some command) argumentLine s).result.isSome = true ∧
    ((processTokenizeArgs addresses (some command) argumentLine s).isOk = true ↔
      (argumentTokens command argumentLine).length ≤ processMaxArgs ∧
        ((argumentTokens command argumentLine).map (·.length + 1)).sum ≤ processArgBufferSize) ∧
    ∀ s₁, processTokenizeArgs addresses (some command) argumentLine s = .ok () s₁ →
      ∀ s₂, ArgumentsKept s₁ s₂ → ∃ s₃, processStageUserContext addresses s₂ = .ok () s₃ ∧
        GetsArguments s₃.memory s₃.runtime.userInfoAddr (argumentTokens command argumentLine) ∧
        ∀ a, ¬ (processAbiStackBase ≤ a ∧ a < processAbiStackBase + userContextSize) →
          s₃.memory a = s₂.memory a := by
  have hends := processTokenizeArgs_ends addresses s argumentLine hcommand
  refine ⟨hends.result_isSome, ?_, fun s₁ hrun s₂ hkept => ?_⟩
  · exact (Ends.mono hends (fun _ _ h => h.2) fun _ _ h => h).isOk_iff
  obtain ⟨rfl, hfits⟩ := hends.of_ok hrun
  have hstage := processStageUserContext_ends (ArgState.tokenized_argvInside hfits hkept)
    (by rw [hkept.stackSize]; decide) (by rw [hkept.stackBase]; decide)
  obtain ⟨_, s₃, hok, hcontext⟩ := hstage.exists_ok
  refine ⟨s₃, hok, ?_, fun a ha => hcontext.outside a ?_⟩
  · rw [hcontext.info]
    refine hcontext.getsArguments hfits ?_ hkept.argBuffer hkept.argv argumentTokens_noNul
    exact congrArg ProgramInfo.argc hkept.info
  · rw [hkept.stackBase]
    exact ha

/-- A process after `process_init`. -/
def freshArgs : ArgState where
  addressSpace := (processResetFields []).addressSpace
  runtime := ⟨⟨0, 0, 0⟩, fun _ => 0, fun _ => 0, fun _ => 0, 0⟩
  memory _ := 0

/-- `ls`. -/
def commandLs : CString := ⟨[0x6C, 0x73], by simp⟩

/-- ` /bin `. -/
def lineBin : CString := ⟨[0x20, 0x2F, 0x62, 0x69, 0x6E, 0x20], by simp⟩

theorem processArguments_staged_two :
    ∃ s₁ s₃, processTokenizeArgs ⟨0, 128, 384⟩ (some commandLs) (some lineBin) freshArgs = .ok () s₁ ∧
      processStageUserContext ⟨0, 128, 384⟩ s₁ = .ok () s₃ ∧
      GetsArguments s₃.memory s₃.runtime.userInfoAddr
        [[0x6C, 0x73], [0x2F, 0x62, 0x69, 0x6E]] := by
  have hcommand : commandLs.chars ≠ [] := by decide
  have htokens : argumentTokens commandLs (some lineBin)
      = [[0x6C, 0x73], [0x2F, 0x62, 0x69, 0x6E]] := by decide
  obtain ⟨-, hok, hstaged⟩ :=
    processArguments_staged ⟨0, 128, 384⟩ freshArgs commandLs (some lineBin) hcommand
  obtain ⟨_, s₁, hrun⟩ := exists_ok_of_isOk (hok.mpr (by rw [htokens]; decide))
  have hkept : ArgumentsKept s₁ s₁ := by
    rw [processTokenizeArgs_ok hcommand hrun]
    exact ⟨rfl, rfl, rfl, rfl, rfl⟩
  obtain ⟨s₃, hstage, hgets, -⟩ := hstaged s₁ hrun s₁ hkept
  rw [htokens] at hgets
  exact ⟨s₁, s₃, hrun, hstage, hgets⟩

end FunnyOS.Programs
