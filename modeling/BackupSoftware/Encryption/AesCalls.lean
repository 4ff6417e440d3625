import BackupSoftware.Encryption.Aes
import BackupSoftware.Encryption.AesStandard
import BackupSoftware.Library.Trace

/-!
# Calls of the AES functions

The tables are global variables that the first call fills, so what a call does depends
on the calls before it. In every state that calls can reach, from either of the two
builds, a call encrypts or decrypts its blocks with the cipher on bytes, and a message
that was encrypted by one call is restored by any later one that finds the ciphertext
and the key in memory.
-/

namespace BackupSoftware.Encryption

open Library

/-- The global variables of `encryption/aes.c`. -/
structure AesGlobals where
  tables : AesTables
  doInit : Bool
  kt : Quad (List ULong)
  ktInit : Bool
  deriving DecidableEq, Repr

/-- The arrays that no function has written yet. -/
def zeroTable : List ULong := List.replicate 256 0

/-- The variables when the program starts, without `FIXED_TABLES` and with it. -/
def startGlobals (fixed : Bool) : AesGlobals where
  tables := if fixed then fixedTables else
    ⟨zeroTable, zeroTable, zeroTable, zeroTable, zeroTable, zeroTable, zeroTable, zeroTable,
      zeroTable, zeroTable, List.replicate 10 0⟩
  doInit := !fixed
  kt := ⟨zeroTable, zeroTable, zeroTable, zeroTable⟩
  ktInit := true

/-- The variables after `aes_set_key` made what is not there yet. -/
def initialise (g : AesGlobals) : AesGlobals :=
  let tables := if g.doInit then aesGenTables else g.tables
  { tables := tables, doInit := false
    kt := if g.ktInit then ktTables tables else g.kt, ktInit := false }

/-- The block functions of the file. -/
def aesBlocks (g : AesGlobals) : AesBlocks AesContext where
  setKey := contextOf g.tables g.kt
  encrypt := fun ctx b => aesEncrypt g.tables ctx (b.toList.getD · 0)
  decrypt := fun ctx b => aesDecrypt g.tables ctx (b.toList.getD · 0)

/-- A call of `lib_aes_encrypt` or of `lib_aes_decrypt`, with its pointers. -/
structure AesCall where
  decrypt : Bool
  out : Nat
  inp : Nat
  inlen : Int
  key : Nat
  keysize : UInt32
  deriving DecidableEq, Repr

structure AesState where
  mem : Nat → UInt8
  globals : AesGlobals

def startState (fixed : Bool) (mem : Nat → UInt8) : AesState := ⟨mem, startGlobals fixed⟩

/-- A call fails if the words of the key do not fit into `erk`. -/
def aesCallStep (s : AesState) (c : AesCall) : Except Unit (AesState × Unit) :=
  if 64 < (c.keysize >>> 5).toNat then .error ()
  else
    let g := initialise s.globals
    let key := fun k => s.mem (c.key + k)
    let mem :=
      if c.decrypt then libAesDecrypt (aesBlocks g) s.mem c.out c.inp c.inlen key c.keysize
      else libAesEncrypt (aesBlocks g) s.mem c.out c.inp c.inlen key c.keysize
    .ok (⟨mem, g⟩, ())

/-- The states that calls lead to, in either build. -/
def AesReachable (s : AesState) : Prop :=
  ∃ fixed mem calls outs, Trace.run aesCallStep (startState fixed mem) calls = .ok (s, outs)

/-- What is marked as made is what the fixed tables give. -/
def AesGlobals.Ready (g : AesGlobals) : Prop :=
  (g.doInit = false → g.tables = fixedTables) ∧
    (g.ktInit = false → g.doInit = false ∧ g.kt = ktTables fixedTables)

/-- The variables after the first call. -/
def madeGlobals : AesGlobals := ⟨fixedTables, false, ktTables fixedTables, false⟩

theorem ready_start (fixed : Bool) : (startGlobals fixed).Ready := by
  refine ⟨fun h => ?_, fun h => by cases h⟩
  cases fixed with
  | false => cases h
  | true => rfl

theorem initialise_eq {g : AesGlobals} (h : g.Ready) : initialise g = madeGlobals := by
  have htables : (if g.doInit then aesGenTables else g.tables) = fixedTables := by
    cases hinit : g.doInit with
    | true => exact aesGenTables_eq_fixedTables
    | false => exact h.1 hinit
  have hkt : (if g.ktInit then ktTables fixedTables else g.kt) = ktTables fixedTables := by
    cases hinit : g.ktInit with
    | true => rfl
    | false => exact (h.2 hinit).2
  simp only [initialise, htables, hkt, madeGlobals]

theorem ready_made : madeGlobals.Ready := ⟨fun _ => rfl, fun _ => ⟨rfl, rfl⟩⟩

theorem aesCallStep_ready {s s' : AesState} {c : AesCall} {u : Unit} (h : s.globals.Ready)
    (hstep : aesCallStep s c = .ok (s', u)) : s'.globals.Ready := by
  unfold aesCallStep at hstep
  split at hstep
  · cases hstep
  · cases hstep
    show (initialise s.globals).Ready
    rw [initialise_eq h]
    exact ready_made

theorem reachable_ready {s : AesState} (h : AesReachable s) : s.globals.Ready := by
  obtain ⟨fixed, mem, calls, outs, hrun⟩ := h
  exact Trace.run_invariant (fun s : AesState => s.globals.Ready)
    (fun _ _ _ _ h hs => aesCallStep_ready h hs) (ready_start fixed) hrun

/-- What a call does to the memory in a state that can be reached. -/
theorem aesCallStep_eq {s : AesState} (hs : AesReachable s) {c : AesCall}
    (hfit : (c.keysize >>> 5).toNat ≤ 64) :
    aesCallStep s c = .ok (⟨aesBuffer
      (if c.decrypt then
        (aesBlocks madeGlobals).decrypt ((aesBlocks madeGlobals).setKey (fun k => s.mem (c.key + k))
          c.keysize)
      else (aesBlocks madeGlobals).encrypt ((aesBlocks madeGlobals).setKey
        (fun k => s.mem (c.key + k)) c.keysize)) s.mem c.out c.inp c.inlen, madeGlobals⟩, ()) := by
  unfold aesCallStep
  rw [if_neg (by omega), initialise_eq (reachable_ready hs)]
  cases c.decrypt <;> rfl

/-- The cipher or its inverse on the bytes of a block, under the bytes of a key. -/
def standardBlock (decrypt : Bool) (key : Nat → UInt8) (keysize : UInt32) (b : Vector UInt8 16) :
    Vector UInt8 16 :=
  let w := Rijndael.expandedWord (keysize >>> 5).toNat (byteColumn key)
  let x := stateOf (b.toList.getD · 0)
  stateBytes (if decrypt then Rijndael.eqInvCipher (nrOf keysize) w x
    else Rijndael.cipher (nrOf keysize) w x)

theorem encrypt_made (key : Nat → UInt8) {keysize : UInt32}
    (hsize : keysize = 128 ∨ keysize = 192 ∨ keysize = 256) (b : Vector UInt8 16) :
    (aesBlocks madeGlobals).encrypt ((aesBlocks madeGlobals).setKey key keysize) b =
      standardBlock false key keysize b := by
  have hwords := Rijndael.cipher_congr (erkOf_expanded key hsize).2
  show aesEncrypt fixedTables (contextOf fixedTables (ktTables fixedTables) key keysize) _ = _
  rw [aesEncrypt_eq_cipher (nrOf_cases keysize)]
  exact congrArg stateBytes (congrFun hwords _)

example : (aesBlocks madeGlobals).encrypt ((aesBlocks madeGlobals).setKey (UInt8.ofNat ·) 128)
    plainExample = cipherExample := by
  decide +kernel

theorem decrypt_made (key : Nat → UInt8) {keysize : UInt32}
    (hsize : keysize = 128 ∨ keysize = 192 ∨ keysize = 256) (b : Vector UInt8 16) :
    (aesBlocks madeGlobals).decrypt ((aesBlocks madeGlobals).setKey key keysize) b =
      standardBlock true key keysize b := by
  have hwords := Rijndael.eqInvCipher_congr (erkOf_expanded key hsize).2
  show aesDecrypt fixedTables (contextOf fixedTables (ktTables fixedTables) key keysize) _ = _
  rw [aesDecrypt_eq_eqInvCipher]
  exact congrArg stateBytes (congrFun hwords _)

/-- Outside of the blocks of `out` a call changes nothing. -/
theorem aesBuffer_outside (crypt : Vector UInt8 16 → Vector UInt8 16) (mem : Nat → UInt8)
    (out inp : Nat) {inlen : Int} (hpos : 1 ≤ inlen) {a : Nat}
    (ha : a < out ∨ out + 16 * blockCount inlen ≤ a) :
    aesBuffer crypt mem out inp inlen a = mem a := by
  rw [aesBuffer_eq]
  exact Blocks.mapBlocks_outside crypt inp (fun k hk => (mem_processed_iff hpos).mp hk) mem ha

/-- In every state that calls can reach, a call with a key of 128, 192 or 256 bits maps
every block of its input with the cipher or with its inverse. -/
theorem aes_calls_compute_cipher {s : AesState} (hs : AesReachable s) (c : AesCall)
    (hsize : c.keysize = 128 ∨ c.keysize = 192 ∨ c.keysize = 256) (hpos : 1 ≤ c.inlen)
    (hapart : c.inp + 16 * blockCount c.inlen ≤ c.out ∨ c.out + 16 * blockCount c.inlen ≤ c.inp) :
    ∃ s', aesCallStep s c = .ok (s', ()) ∧
      (∀ k, k < blockCount c.inlen → Blocks.block 16 s'.mem (c.out + 16 * k) =
        standardBlock c.decrypt (fun k => s.mem (c.key + k)) c.keysize
          (Blocks.block 16 s.mem (c.inp + 16 * k))) ∧
      ∀ a, a < c.out ∨ c.out + 16 * blockCount c.inlen ≤ a → s'.mem a = s.mem a := by
  have hfit : (c.keysize >>> 5).toNat ≤ 64 := by
    rcases hsize with h | h | h <;> rw [h] <;> decide
  refine ⟨_, aesCallStep_eq hs hfit, fun k hk => ?_, fun a ha => aesBuffer_outside _ _ _ _ hpos ha⟩
  show Blocks.block 16 (aesBuffer _ s.mem c.out c.inp c.inlen) _ = _
  rw [block_aesBuffer _ _ hpos hapart hk]
  cases c.decrypt with
  | false => exact encrypt_made _ hsize _
  | true => exact decrypt_made _ hsize _

theorem reachable_start (fixed : Bool) (mem : Nat → UInt8) : AesReachable (startState fixed mem) :=
  ⟨fixed, mem, [], [], rfl⟩

/-- The first call of the program, with a key of 192 bits. -/
theorem aes_calls_compute_cipher_first :
    ∃ s', aesCallStep (startState false (UInt8.ofNat ·)) ⟨false, 64, 32, 20, 0, 192⟩ =
        .ok (s', ()) ∧
      (∀ k, k < 2 → Blocks.block 16 s'.mem (64 + 16 * k) =
        standardBlock false (fun k => UInt8.ofNat (0 + k)) 192
          (Blocks.block 16 (UInt8.ofNat ·) (32 + 16 * k))) ∧
      ∀ a, a < 64 ∨ 64 + 16 * 2 ≤ a → s'.mem a = UInt8.ofNat a :=
  aes_calls_compute_cipher (reachable_start false _) ⟨false, 64, 32, 20, 0, 192⟩
    (Or.inr (Or.inl rfl)) (by decide) (by decide)

theorem decrypt_encrypt_made (key : Nat → UInt8) (keysize : UInt32) (b : Vector UInt8 16) :
    (aesBlocks madeGlobals).decrypt ((aesBlocks madeGlobals).setKey key keysize)
      ((aesBlocks madeGlobals).encrypt ((aesBlocks madeGlobals).setKey key keysize) b) = b := by
  have hencrypt : (aesBlocks madeGlobals).encrypt ((aesBlocks madeGlobals).setKey key keysize) b =
      stateBytes (Rijndael.cipher (nrOf keysize) (columnAt (erkOf fixedTables key keysize))
        (stateOf (b.toList.getD · 0))) := aesEncrypt_eq_cipher (nrOf_cases keysize) _
  rw [hencrypt]
  show aesDecrypt fixedTables (contextOf fixedTables (ktTables fixedTables) key keysize) _ = b
  rw [aesDecrypt_eq_eqInvCipher, stateOf_stateBytes, Rijndael.eqInvCipher_cipher]
  ext k hk
  rw [stateBytes_stateOf _ hk, List.getD_eq_getElem _ _ (by rwa [Vector.length_toList]),
    Vector.getElem_toList]

/-- Of the key the bytes of its whole words are read. -/
theorem contextOf_congr (t : AesTables) (kt : Quad (List ULong)) {key key' : Nat → UInt8}
    {keysize : UInt32} (h : ∀ k, k < 4 * (keysize >>> 5).toNat → key k = key' k) :
    contextOf t kt key keysize = contextOf t kt key' keysize := by
  have hword (i : Nat) (hi : i < (keysize >>> 5).toNat) :
      getUint32 key (i * 4) = getUint32 key' (i * 4) := by
    rw [getUint32, getUint32, h (i * 4) (by omega), h (i * 4 + 1) (by omega),
      h (i * 4 + 2) (by omega), h (i * 4 + 3) (by omega)]
  have hwords : keyWords key keysize = keyWords key' keysize :=
    congrArg (storeWords (List.replicate 64 0) 0)
      (List.map_congr_left fun i hi => hword i (List.mem_range.mp hi))
  simp only [contextOf, erkOf, hwords]

/-- A message that a call encrypted is restored by every call of `lib_aes_decrypt`,
whatever calls were made before either of them, if that finds the ciphertext and the bytes
of the key in memory. -/
theorem aes_calls_round_trip {s s₁ s₂ : AesState} (hs : AesReachable s) (hs₂ : AesReachable s₂)
    {c d : AesCall} (hencrypt : c.decrypt = false) (hdecrypt : d.decrypt = true)
    (hinlen : d.inlen = c.inlen) (hkeysize : d.keysize = c.keysize) (hpos : 1 ≤ c.inlen)
    (hc : c.inp + 16 * blockCount c.inlen ≤ c.out ∨ c.out + 16 * blockCount c.inlen ≤ c.inp)
    (hd : d.inp + 16 * blockCount d.inlen ≤ d.out ∨ d.out + 16 * blockCount d.inlen ≤ d.inp)
    (hcall : aesCallStep s c = .ok (s₁, ()))
    (hcipher : Memory.load s₂.mem d.inp (16 * blockCount c.inlen) =
      Memory.load s₁.mem c.out (16 * blockCount c.inlen))
    (hkey : Memory.load s₂.mem d.key (4 * (c.keysize >>> 5).toNat) =
      Memory.load s.mem c.key (4 * (c.keysize >>> 5).toNat)) :
    ∃ s₃, aesCallStep s₂ d = .ok (s₃, ()) ∧
      Memory.load s₃.mem d.out c.inlen.toNat = Memory.load s.mem c.inp c.inlen.toNat := by
  have hfit : (c.keysize >>> 5).toNat ≤ 64 := by
    unfold aesCallStep at hcall
    split at hcall
    · cases hcall
    · omega
  rw [aesCallStep_eq hs hfit, Except.ok.injEq, Prod.mk.injEq] at hcall
  obtain ⟨rfl, -⟩ := hcall
  have hcontext : (aesBlocks madeGlobals).setKey (fun k => s₂.mem (d.key + k)) c.keysize =
      (aesBlocks madeGlobals).setKey (fun k => s.mem (c.key + k)) c.keysize := by
    refine contextOf_congr _ _ fun k hk => ?_
    have hget := congrArg (fun l : List UInt8 => l[k]?) hkey
    simpa only [Memory.getElem?_load _ _ hk, Option.some.injEq] using hget
  refine ⟨_, aesCallStep_eq hs₂ (by rwa [hkeysize]), ?_⟩
  have hle : c.inlen.toNat ≤ 16 * blockCount c.inlen := by
    unfold blockCount
    omega
  refine Blocks.load_eq_of_le (Blocks.load_eq_of_blocks fun k hk => ?_) hle
  show Blocks.block 16 (aesBuffer _ s₂.mem d.out d.inp d.inlen) _ = _
  rw [block_aesBuffer _ _ (by omega) hd (by rwa [hinlen]), Blocks.block_eq_of_load hcipher hk,
    block_aesBuffer _ _ hpos hc hk, hencrypt, hdecrypt, hkeysize, hcontext]
  exact decrypt_encrypt_made _ _ _

theorem reachable_step {s s' : AesState} (h : AesReachable s) {c : AesCall} {u : Unit}
    (hstep : aesCallStep s c = .ok (s', u)) : AesReachable s' := by
  obtain ⟨fixed, mem, calls, outs, hrun⟩ := h
  exact ⟨fixed, mem, calls ++ [c], outs ++ [u], Trace.run_append_iff.mpr
    ⟨s, outs, [u], hrun, Trace.run_cons_ok hstep rfl, rfl⟩⟩

/-- A message of twenty bytes, encrypted by one call and decrypted by the next. -/
theorem aes_calls_round_trip_twenty_bytes :
    ∃ s₁ s₃, aesCallStep (startState false (UInt8.ofNat ·)) ⟨false, 64, 32, 20, 0, 192⟩ =
        .ok (s₁, ()) ∧
      aesCallStep s₁ ⟨true, 128, 64, 20, 0, 192⟩ = .ok (s₃, ()) ∧
      Memory.load s₃.mem 128 20 = Memory.load (UInt8.ofNat ·) 32 20 := by
  have hstart := reachable_start false (UInt8.ofNat ·)
  obtain ⟨s₁, hcall, hbelow⟩ : ∃ s₁, aesCallStep (startState false (UInt8.ofNat ·))
      ⟨false, 64, 32, 20, 0, 192⟩ = .ok (s₁, ()) ∧ ∀ a, a < 64 → s₁.mem a = UInt8.ofNat a :=
    ⟨_, aesCallStep_eq hstart (by decide), fun a ha =>
      aesBuffer_outside _ _ _ _ (by decide) (Or.inl ha)⟩
  have hwords : 0 + 4 * ((192 : UInt32) >>> 5).toNat ≤ 64 := by decide
  obtain ⟨s₃, hsecond, htext⟩ := aes_calls_round_trip (c := ⟨false, 64, 32, 20, 0, 192⟩)
    (d := ⟨true, 128, 64, 20, 0, 192⟩) hstart (reachable_step hstart hcall) rfl rfl rfl rfl
    (by decide) (by decide) (by decide) hcall rfl
    (Memory.load_congr fun a _ ha => hbelow a (Nat.lt_of_lt_of_le ha hwords))
  exact ⟨s₁, s₃, hcall, hsecond, htext⟩

end BackupSoftware.Encryption
