import BackupSoftware.Library.Channel
import BackupSoftware.Library.Strings
import BackupSoftware.Library.Trace
import Mathlib.Logic.Function.Basic

/-!
# File transfer between the ftp client and server

The client sends its command as one block and then the file, or waits for a status
block and then receives the file. The server reads the command with one call of `read`
into a buffer that it does not clear between connections. Each side has its own files;
a step of the system is a step of one side, with the number of bytes a read takes.
-/

namespace BackupSoftware.Ftp

open BackupSoftware.Library BackupSoftware.Library.Strings BackupSoftware.Library.Trace

/-- The constant `N` of both programs. -/
def blockSize : Nat := 256

inductive Transfer where
  | get
  | put
deriving DecidableEq, Repr

def Transfer.word : Transfer → List UInt8
  | .get => [103, 101, 116]
  | .put => [112, 117, 116]

/-- A line `get name` or `put name` that fits the command buffer of the client. -/
structure Command where
  transfer : Transfer
  name : List UInt8
  no_nul : ∀ b ∈ name, b ≠ 0
  short : name.length + 4 < blockSize

/-- The command buffer of the client, which was cleared before the line was read. -/
def Command.block (c : Command) : List UInt8 :=
  c.transfer.word ++ 32 :: c.name ++ List.replicate (blockSize - (c.name.length + 4)) 0

/-- The string at `commd + 4`. -/
def fileName (commd : List UInt8) : List UInt8 := (commd.drop 4).takeWhile fun b => b ≠ 0

/-- The status block that starts with `b`. -/
def status (b : UInt8) : List UInt8 := b :: List.replicate (blockSize - 1) 0

def statusYes : List UInt8 := status 89
def statusNo : List UInt8 := status 78

abbrev Files := List UInt8 → Option (List UInt8)

/-- `open` with `O_CREAT | O_TRUNC`. -/
def Files.create (files : Files) (name : List UInt8) : Files := Function.update files name (some [])

def Files.append (files : Files) (name bytes : List UInt8) : Files :=
  Function.update files name (some ((files name).getD [] ++ bytes))

@[simp] theorem Files.create_same (files : Files) (name : List UInt8) :
    files.create name name = some [] := Function.update_self ..

theorem Files.append_same {files : Files} {name written : List UInt8}
    (h : files name = some written) (bytes : List UInt8) :
    files.append name bytes name = some (written ++ bytes) := by
  rw [append, Function.update_self, h, Option.getD_some]

/-- Where the client is: `sending` and `receiving` have the file open. -/
inductive Client where
  | start
  | sending (rest : List UInt8)
  | awaiting
  | receiving
  | done
deriving DecidableEq, Repr

/-- Where the server is; `listing` is `commd_ls`. -/
inductive Server where
  | start
  | receiving (name : List UInt8)
  | sending (rest : List UInt8)
  | listing (rest : List (List UInt8))
  | done
deriving DecidableEq, Repr

structure System where
  client : Client
  server : Server
  up : Channel UInt8
  down : Channel UInt8
  /-- The command buffer of the server. -/
  commd : List UInt8
  clientFiles : Files
  serverFiles : Files

/-- What the programs find besides the files: the first byte of the status buffer of the client
before anything is read into it, and the blocks that `commd_ls` writes. -/
structure Env where
  garbage : UInt8
  listing : List (List UInt8)

variable (env : Env) (c : Command)

def clientStep (s : System) (k : Nat) : Option System :=
  match s.client with
  | .start =>
      match c.transfer with
      | .get => some { s with client := .awaiting, up := s.up.write c.block }
      | .put =>
          match s.clientFiles (fileName c.block) with
          | none => some { s with client := .done, up := (s.up.write c.block).close }
          | some file => some { s with client := .sending file, up := s.up.write c.block }
  | .sending [] => some { s with client := .done, up := s.up.close }
  | .sending (b :: rest) =>
      some { s with
        client := .sending ((b :: rest).drop blockSize)
        up := s.up.write ((b :: rest).take blockSize) }
  | .awaiting =>
      match s.down.read blockSize k with
      | none => none
      | some (buffer, down) =>
          if buffer.headD env.garbage = 78 then
            some { s with client := .done, down := down, up := s.up.close }
          else
            some { s with
              client := .receiving
              down := down
              clientFiles := s.clientFiles.create (fileName c.block) }
  | .receiving =>
      match s.down.read blockSize k with
      | none => none
      | some ([], down) => some { s with client := .done, down := down, up := s.up.close }
      | some (b :: buffer, down) =>
          some { s with
            down := down
            clientFiles := s.clientFiles.append (fileName c.block) (b :: buffer) }
  | .done => none

/-- What the server does with the command in its buffer. -/
def dispatch (s : System) : System :=
  if strncmp s.commd [108, 115] 2 = 0 then { s with server := .listing env.listing }
  else if strncmp s.commd [103, 101, 116] 3 = 0 then
    match s.serverFiles (fileName s.commd) with
    | none => { s with server := .done, down := s.down.write statusNo }
    | some file => { s with server := .sending file, down := s.down.write statusYes }
  else if strncmp s.commd [112, 117, 116] 3 = 0 then
    { s with
      server := .receiving (fileName s.commd)
      serverFiles := s.serverFiles.create (fileName s.commd) }
  else { s with server := .done }

def serverStep (s : System) (k : Nat) : Option System :=
  match s.server with
  | .start =>
      match s.up.read blockSize k with
      | none => none
      | some (bytes, up) =>
          some (dispatch env { s with up := up, commd := bytes ++ s.commd.drop bytes.length })
  | .receiving name =>
      match s.up.read blockSize k with
      | none => none
      | some ([], up) => some { s with server := .done, up := up, down := s.down.close }
      | some (b :: buffer, up) =>
          some { s with up := up, serverFiles := s.serverFiles.append name (b :: buffer) }
  | .sending [] => some { s with server := .done, down := s.down.close }
  | .sending (b :: rest) =>
      some { s with
        server := .sending ((b :: rest).drop blockSize)
        down := s.down.write ((b :: rest).take blockSize) }
  | .listing [] => some { s with server := .done, down := s.down.close }
  | .listing (block :: rest) =>
      some { s with server := .listing rest, down := s.down.write block }
  | .done => none

/-- One side takes a step; a read of that step takes `k` bytes. -/
inductive Action where
  | client (k : Nat)
  | server (k : Nat)
deriving DecidableEq, Repr

/-- The side cannot move: it has ended, or its read blocks or cannot take that many bytes. -/
inductive Blocked where
  | blocked

def step (s : System) (a : Action) : Except Blocked (System × Unit) :=
  match a with
  | .client k =>
      match clientStep env c s k with
      | none => .error .blocked
      | some s' => .ok (s', ())
  | .server k =>
      match serverStep env s k with
      | none => .error .blocked
      | some s' => .ok (s', ())

/-- A connection that has just been accepted; `stale` is what earlier commands left in the buffer of
the server. -/
def initial (stale : Vector UInt8 blockSize) (clientFiles serverFiles : Files) : System where
  client := .start
  server := .start
  up := ⟨[], false⟩
  down := ⟨[], false⟩
  commd := stale.toList
  clientFiles := clientFiles
  serverFiles := serverFiles

variable {env c} {s s' : System} {k : Nat}

theorem step_client_iff {u : Unit} :
    step env c s (.client k) = .ok (s', u) ↔ clientStep env c s k = some s' := by
  rw [step]
  split
  · next h => simp [h]
  · next t h => simp [h]

theorem step_server_iff {u : Unit} :
    step env c s (.server k) = .ok (s', u) ↔ serverStep env s k = some s' := by
  rw [step]
  split
  · next h => simp [h]
  · next t h => simp [h]

/-- The client does not touch the server, its buffer and its files. -/
theorem clientStep_keeps (h : clientStep env c s k = some s') :
    s'.server = s.server ∧ s'.commd = s.commd ∧ s'.serverFiles = s.serverFiles := by
  unfold clientStep at h
  repeat' split at h
  all_goals cases h
  all_goals exact ⟨rfl, rfl, rfl⟩

theorem dispatch_keeps (env : Env) (s : System) :
    (dispatch env s).server ≠ .start ∧ (dispatch env s).commd = s.commd ∧
      (dispatch env s).client = s.client ∧ (dispatch env s).up = s.up ∧
      (dispatch env s).clientFiles = s.clientFiles := by
  unfold dispatch
  repeat' split
  all_goals exact ⟨nofun, rfl, rfl, rfl, rfl⟩

/-- The first step of the server fills its buffer; what the read does not reach stays. -/
theorem serverStep_start (hs : s.server = .start) (h : serverStep env s k = some s') :
    ∃ bytes up, s.up.read blockSize k = some (bytes, up) ∧
      s' = dispatch env { s with up := up, commd := bytes ++ s.commd.drop bytes.length } := by
  rw [serverStep, hs] at h
  simp only at h
  split at h
  · cases h
  · next bytes up hread =>
    cases h
    exact ⟨bytes, up, hread, rfl⟩

/-- Later steps of the server do not touch its buffer. -/
theorem serverStep_keeps (hs : s.server ≠ .start) (h : serverStep env s k = some s') :
    s'.server ≠ .start ∧ s'.commd = s.commd := by
  unfold serverStep at h
  split at h
  · next hstart => exact absurd hstart hs
  all_goals repeat' split at h
  all_goals cases h
  all_goals exact ⟨by simp_all, rfl⟩

/-- The server does not touch the client and its files, and closes only its own stream. -/
theorem serverStep_frame (h : serverStep env s k = some s') :
    s'.client = s.client ∧ s'.clientFiles = s.clientFiles ∧ s'.up.closed = s.up.closed := by
  cases hserver : s.server with
  | start =>
    obtain ⟨bytes, up, hread, rfl⟩ := serverStep_start hserver h
    obtain ⟨-, -, hclient, hup, hfiles⟩ := dispatch_keeps env
      { s with up := up, commd := bytes ++ s.commd.drop bytes.length }
    rw [hclient, hup, hfiles]
    exact ⟨rfl, rfl, Channel.closed_of_read hread⟩
  | receiving name =>
    simp only [serverStep, hserver] at h
    split at h
    · cases h
    · next up hread =>
      cases h
      exact ⟨rfl, rfl, Channel.closed_of_read hread⟩
    · next b buffer up hread =>
      cases h
      exact ⟨rfl, rfl, Channel.closed_of_read hread⟩
  | sending rest =>
    cases rest with
    | nil =>
      simp only [serverStep, hserver] at h
      cases h
      exact ⟨rfl, rfl, rfl⟩
    | cons b rest =>
      simp only [serverStep, hserver] at h
      cases h
      exact ⟨rfl, rfl, rfl⟩
  | listing rest =>
    cases rest with
    | nil =>
      simp only [serverStep, hserver] at h
      cases h
      exact ⟨rfl, rfl, rfl⟩
    | cons b rest =>
      simp only [serverStep, hserver] at h
      cases h
      exact ⟨rfl, rfl, rfl⟩
  | done =>
    simp only [serverStep, hserver] at h
    cases h

/-- In a state that cannot move, neither side can. -/
theorem stuck_iff :
    Stuck (step env c) s ↔ (∀ k, clientStep env c s k = none) ∧ ∀ k, serverStep env s k = none := by
  constructor
  · intro h
    constructor
    · intro k
      cases hstep : clientStep env c s k with
      | none => rfl
      | some s' => exact absurd (step_client_iff.mpr hstep) (h (.client k) (s', ()))
    · intro k
      cases hstep : serverStep env s k with
      | none => rfl
      | some s' => exact absurd (step_server_iff.mpr hstep) (h (.server k) (s', ()))
  · intro h a r hr
    obtain ⟨s', u⟩ := r
    cases a with
    | client k => rw [step_client_iff, h.1 k] at hr; cases hr
    | server k => rw [step_server_iff, h.2 k] at hr; cases hr

def Client.rank : Client → Nat
  | .start => 3
  | .awaiting => 2
  | .sending _ => 1
  | .receiving => 1
  | .done => 0

def Server.rank : Server → Nat
  | .start => 2
  | .done => 0
  | _ => 1

theorem Server.rank_lt_start {t : Server} (h : t ≠ .start) : t.rank < Server.start.rank := by
  cases t with
  | start => exact absurd rfl h
  | receiving name => exact Nat.lt_succ_self 1
  | sending rest => exact Nat.lt_succ_self 1
  | listing rest => exact Nat.lt_succ_self 1
  | done => exact Nat.zero_lt_succ 1

/-- The bytes that still have to be sent. -/
def Client.unsent : Client → Nat
  | .sending rest => rest.length
  | _ => 0

def Server.unsent : Server → Nat
  | .sending rest => rest.length
  | .listing rest => rest.flatten.length + rest.length
  | _ => 0

def System.rank (s : System) : Nat := s.client.rank + s.server.rank

/-- A byte counts twice while it is not sent and once while it is pending. -/
def System.work (s : System) : Nat :=
  2 * s.client.unsent + s.up.pending.length + 2 * s.server.unsent + s.down.pending.length

/-- Sending a chunk moves its bytes from the file to the stream. -/
theorem length_chunk (b : UInt8) (rest : List UInt8) :
    ((b :: rest).drop blockSize).length + ((b :: rest).take blockSize).length = rest.length + 1 ∧
      0 < ((b :: rest).take blockSize).length := by
  rw [List.length_drop, List.length_take, List.length_cons, blockSize]
  omega

theorem length_pending {ch ch' : Channel UInt8} {n k : Nat} {b : UInt8} {bytes : List UInt8}
    (h : ch.read n k = some (b :: bytes, ch')) : ch'.pending.length < ch.pending.length := by
  rcases Channel.read_cases h with ⟨hnil, -⟩ | ⟨-, -, -, hpending, -⟩
  · cases hnil
  · rw [hpending, List.length_append, List.length_cons]
    omega

theorem clientStep_decreases (h : clientStep env c s k = some s') :
    s'.rank < s.rank ∨ s'.rank = s.rank ∧ s'.work < s.work := by
  cases hclient : s.client with
  | start =>
    left
    simp only [clientStep, hclient] at h
    repeat' split at h
    all_goals cases h
    all_goals simp [System.rank, Client.rank, hclient]
  | sending rest =>
    cases rest with
    | nil =>
      left
      simp only [clientStep, hclient] at h
      cases h
      simp [System.rank, Client.rank, hclient]
    | cons b rest =>
      right
      simp only [clientStep, hclient] at h
      cases h
      have hchunk := length_chunk b rest
      refine ⟨by simp [System.rank, Client.rank, hclient], ?_⟩
      simp only [System.work, Client.unsent, hclient, Channel.pending_write, List.length_append,
        List.length_cons]
      omega
  | awaiting =>
    left
    simp only [clientStep, hclient] at h
    repeat' split at h
    all_goals cases h
    all_goals simp [System.rank, Client.rank, hclient]
  | receiving =>
    simp only [clientStep, hclient] at h
    split at h
    · cases h
    · cases h
      left
      simp [System.rank, Client.rank, hclient]
    · next b buffer down hread =>
      cases h
      right
      have hless := length_pending hread
      refine ⟨by simp [System.rank, hclient], ?_⟩
      simp only [System.work, hclient]
      omega
  | done =>
    simp only [clientStep, hclient] at h
    cases h

theorem serverStep_decreases (h : serverStep env s k = some s') :
    s'.rank < s.rank ∨ s'.rank = s.rank ∧ s'.work < s.work := by
  cases hserver : s.server with
  | start =>
    left
    obtain ⟨bytes, up, -, rfl⟩ := serverStep_start hserver h
    obtain ⟨hstart, -, hclient, -⟩ := dispatch_keeps env
      { s with up := up, commd := bytes ++ s.commd.drop bytes.length }
    have hless := Server.rank_lt_start hstart
    rw [System.rank, System.rank, hclient, hserver]
    simp only [hserver] at hless ⊢
    omega
  | receiving name =>
    simp only [serverStep, hserver] at h
    split at h
    · cases h
    · cases h
      left
      simp [System.rank, Server.rank, hserver]
    · next b buffer up hread =>
      cases h
      right
      have hless := length_pending hread
      refine ⟨by simp [System.rank, hserver], ?_⟩
      simp only [System.work, hserver]
      omega
  | sending rest =>
    cases rest with
    | nil =>
      left
      simp only [serverStep, hserver] at h
      cases h
      simp [System.rank, Server.rank, hserver]
    | cons b rest =>
      right
      simp only [serverStep, hserver] at h
      cases h
      have hchunk := length_chunk b rest
      refine ⟨by simp [System.rank, Server.rank, hserver], ?_⟩
      simp only [System.work, Server.unsent, hserver, Channel.pending_write, List.length_append,
        List.length_cons]
      omega
  | listing rest =>
    cases rest with
    | nil =>
      left
      simp only [serverStep, hserver] at h
      cases h
      simp [System.rank, Server.rank, hserver]
    | cons block rest =>
      right
      simp only [serverStep, hserver] at h
      cases h
      refine ⟨by simp [System.rank, Server.rank, hserver], ?_⟩
      simp only [System.work, Server.unsent, hserver, Channel.pending_write, List.length_append,
        List.length_cons, List.flatten_cons]
      omega
  | done =>
    simp only [serverStep, hserver] at h
    cases h

/-- Whatever has happened on a connection, it can be run until neither side can move. -/
theorem connection_ends (env : Env) (c : Command) (s : System) :
    ∃ acts t outs, run (step env c) s acts = .ok (t, outs) ∧ Stuck (step env c) t := by
  apply exists_stuck_run
    (InvImage.wf (fun s : System => (s.rank, s.work)) (Prod.lex Nat.lt_wfRel Nat.lt_wfRel).wf)
  intro s a s' u h
  have hless : s'.rank < s.rank ∨ s'.rank = s.rank ∧ s'.work < s.work := by
    cases a with
    | client k => exact clientStep_decreases (step_client_iff.mp h)
    | server k => exact serverStep_decreases (step_server_iff.mp h)
  exact Prod.lex_def.mpr hless

end BackupSoftware.Ftp
