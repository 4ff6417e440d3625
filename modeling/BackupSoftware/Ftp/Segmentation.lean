import BackupSoftware.Ftp.System

/-!
# Transfers under an arbitrary segmentation of the stream

The command block and the status block are each read with one call. What that call
leaves of the block comes first in the file that is written. A transfer is therefore
intact exactly if these reads take whole blocks; only for a download may the read of the
command stop early, if the rest of the block is in the buffer of the server already.
-/

namespace BackupSoftware.Ftp

open BackupSoftware.Library BackupSoftware.Library.Strings BackupSoftware.Library.Trace

variable {env : Env} {c : Command} {file stale : List UInt8} {acts : List Action}
  {s s' : System} {k : Nat}

/-- How many bytes the steps of the server may read, in their order. -/
def serverSizes (acts : List Action) : List Nat :=
  acts.filterMap fun
    | .server k => some k
    | .client _ => none

def clientSizes (acts : List Action) : List Nat :=
  acts.filterMap fun
    | .client k => some k
    | .server _ => none

/-- The size of the read of the command, which is the first step of the server. -/
def commandRead (acts : List Action) : Option Nat := (serverSizes acts).head?

/-- The size of the read of the status, which is the second step of a client that downloads. -/
def statusRead (acts : List Action) : Option Nat := (clientSizes acts)[1]?

@[simp] theorem serverSizes_client : serverSizes (acts ++ [.client k]) = serverSizes acts := by
  simp [serverSizes]

@[simp] theorem serverSizes_server :
    serverSizes (acts ++ [.server k]) = serverSizes acts ++ [k] := by
  simp [serverSizes]

@[simp] theorem clientSizes_server : clientSizes (acts ++ [.server k]) = clientSizes acts := by
  simp [clientSizes]

@[simp] theorem clientSizes_client :
    clientSizes (acts ++ [.client k]) = clientSizes acts ++ [k] := by
  simp [clientSizes]

@[simp] theorem commandRead_client : commandRead (acts ++ [.client k]) = commandRead acts := by
  rw [commandRead, serverSizes_client, commandRead]

theorem commandRead_first (h : serverSizes acts = []) :
    commandRead (acts ++ [.server k]) = some k := by
  rw [commandRead, serverSizes_server, h]
  rfl

theorem commandRead_later {m : Nat} (h : commandRead acts = some m) :
    commandRead (acts ++ [.server k]) = some m := by
  rw [commandRead] at h
  rw [commandRead, serverSizes_server, List.head?_append, h]
  rfl

@[simp] theorem statusRead_server : statusRead (acts ++ [.server k]) = statusRead acts := by
  rw [statusRead, clientSizes_server, statusRead]

theorem statusRead_second (h : (clientSizes acts).length = 1) :
    statusRead (acts ++ [.client k]) = some k := by
  rw [statusRead, clientSizes_client, List.getElem?_append_right (by omega), h]
  rfl

theorem statusRead_later {m : Nat} (h : statusRead acts = some m) :
    statusRead (acts ++ [.client k]) = some m := by
  rw [statusRead] at h
  obtain ⟨hlt, -⟩ := List.getElem?_eq_some_iff.mp h
  rw [statusRead, clientSizes_client, List.getElem?_append_left hlt, h]

theorem length_block (c : Command) : c.block.length = blockSize := by
  have hword : c.transfer.word.length = 3 := by cases c.transfer <;> rfl
  have hshort := c.short
  simp only [Command.block, List.length_append, List.length_cons, List.length_replicate, hword]
  omega

@[simp] theorem fileName_block (c : Command) : fileName c.block = c.name := by
  have hword : c.transfer.word.length = 3 := by cases c.transfer <;> rfl
  have hdrop : c.block.drop 4 =
      c.name ++ List.replicate (blockSize - (c.name.length + 4)) 0 := by
    rw [Command.block, List.append_assoc, List.drop_append, hword]
    simp [List.drop_eq_nil_of_le, hword]
  have hpos : 0 < blockSize - (c.name.length + 4) := by have := c.short; omega
  obtain ⟨m, hm⟩ := Nat.exists_eq_add_of_lt hpos
  rw [fileName, hdrop, List.takeWhile_append_of_pos (by simpa using c.no_nul), hm]
  simp [List.replicate_succ]

theorem block_eq (c : Command) : c.block = c.transfer.word ++
    (32 :: c.name ++ List.replicate (blockSize - (c.name.length + 4)) 0) := by
  rw [Command.block, List.append_assoc]

/-- A server that has the whole block starts the transfer it names. -/
theorem dispatch_put (env : Env) (hput : c.transfer = .put) (hcommd : s.commd = c.block) :
    dispatch env s =
      { s with server := .receiving c.name, serverFiles := s.serverFiles.create c.name } := by
  rw [dispatch, show fileName s.commd = c.name by rw [hcommd, fileName_block]]
  rw [block_eq, hput] at hcommd
  rw [if_neg (by rw [hcommd]; simp [strncmp, Transfer.word]),
    if_neg (by rw [hcommd]; simp [strncmp, Transfer.word]),
    if_pos (by rw [hcommd]; simp [strncmp, Transfer.word])]

theorem dispatch_get (env : Env) (hget : c.transfer = .get) (hcommd : s.commd = c.block)
    (hfile : s.serverFiles c.name = some file) :
    dispatch env s = { s with server := .sending file, down := s.down.write statusYes } := by
  rw [dispatch, show fileName s.commd = c.name by rw [hcommd, fileName_block]]
  rw [block_eq, hget] at hcommd
  rw [if_neg (by rw [hcommd]; simp [strncmp, Transfer.word]),
    if_pos (by rw [hcommd]; simp [strncmp, Transfer.word]), hfile]

/-- The buffer of the server after a read of `k` bytes of the block. -/
theorem buffer_eq_block_iff :
    c.block.take k ++ stale.drop k = c.block ↔ stale.drop k = c.block.drop k := by
  constructor
  · intro h
    exact List.append_cancel_left (h.trans (List.take_append_drop k c.block).symm)
  · intro h
    rw [h, List.take_append_drop]

/-- The first read of a stream that starts with a block takes a part of the block. -/
theorem read_block {block taken rest : List UInt8} (h : taken ++ rest = block ++ file)
    (hk : taken.length ≤ block.length) :
    taken = block.take taken.length ∧ rest = block.drop taken.length ++ file := by
  have htake := congrArg (List.take taken.length) h
  have hdrop := congrArg (List.drop taken.length) h
  rw [List.take_left, List.take_append_of_le_length hk] at htake
  rw [List.drop_left, List.drop_append_of_le_length hk] at hdrop
  exact ⟨htake, hdrop⟩

theorem block_ne_nil (c : Command) : c.block ≠ [] := by
  intro h
  have hlen := length_block c
  rw [h] at hlen
  cases hlen

/-- The first step of the server fills its buffer with a part of the block and leaves the rest of the
block in the stream. -/
theorem serverStep_command (c : Command) (rest file : List UInt8) (hserver : s.server = .start)
    (hopen : s.up.closed = true → s.up.pending ≠ [])
    (hstream : s.up.pending ++ rest = c.block ++ file) (hstep : serverStep env s k = some s') :
    ∃ up, k ≤ blockSize ∧ s.up.pending ≠ [] ∧ up.pending ++ rest = c.block.drop k ++ file ∧
      s' = dispatch env { s with up := up, commd := c.block.take k ++ s.commd.drop k } := by
  obtain ⟨bytes, up, hread, rfl⟩ := serverStep_start hserver hstep
  rcases Channel.read_cases hread with ⟨-, hempty, hclosed, -⟩ | ⟨hne, rfl, hk, hpending, -⟩
  · exact absurd hempty (hopen hclosed)
  · rw [hpending, List.append_assoc] at hstream
    obtain ⟨htaken, hrest⟩ := read_block hstream (by rw [length_block]; exact hk)
    refine ⟨up, hk, by simp [hpending, hne], hrest, ?_⟩
    rw [← htaken]

/-- What is left of a block spoils the file that follows it. -/
theorem rest_append_eq_iff {block : List UInt8} (hk : k ≤ block.length) :
    block.drop k ++ file = file ↔ k = block.length := by
  constructor
  · intro h
    have hlen := congrArg List.length h
    rw [List.length_append, List.length_drop] at hlen
    omega
  · intro h
    rw [h, List.drop_length, List.nil_append]

/-- What of the command block and the file the client has not sent yet. -/
def Client.toSend (c : Command) (file : List UInt8) : Client → List UInt8
  | .start => c.block ++ file
  | .sending rest => rest
  | _ => []

@[simp] theorem Client.toSend_done : Client.toSend c file .done = [] := rfl

/-- An uploading client: what it sends, and that it closes the stream only at its end. -/
structure Uploading (c : Command) (file : List UInt8) (s : System) : Prop where
  source : s.clientFiles c.name = some file
  phase : s.client = .start ∨ (∃ rest, s.client = .sending rest) ∨ s.client = .done
  closed : s.up.closed = true ↔ s.client = .done

/-- The server of an upload: before the command, after a command that is not the whole block, and
while it writes what follows the first `k` bytes of the block. -/
inductive UploadServer (c : Command) (file stale : List UInt8) (acts : List Action) (s : System) :
    Prop where
  | fresh (hserver : s.server = .start) (hsizes : serverSizes acts = []) (hcommd : s.commd = stale)
      (hstream : s.up.pending ++ s.client.toSend c file = c.block ++ file)
  | misread (hserver : s.server ≠ .start) (hcommd : s.commd ≠ c.block) (m : Nat)
      (hread : commandRead acts = some m) (hm : m ≠ blockSize)
  | whole (hcommd : s.commd = c.block) (m : Nat) (written : List UInt8)
      (hread : commandRead acts = some m) (hm : m ≤ blockSize)
      (hwritten : s.serverFiles c.name = some written)
      (hstream : written ++ (s.up.pending ++ s.client.toSend c file) = c.block.drop m ++ file)
      (hserver : s.server = .receiving c.name ∨
        s.server = .done ∧ s.client = .done ∧ s.up.pending = [])

/-- The client moves bytes from the file to the stream. -/
theorem clientStep_upload (hput : c.transfer = .put) (h : Uploading c file s)
    (hstep : clientStep env c s k = some s') :
    Uploading c file s' ∧ s.client ≠ .done ∧
      s'.up.pending ++ s'.client.toSend c file = s.up.pending ++ s.client.toSend c file := by
  obtain ⟨hsource, hphase, hclosed⟩ := h
  rcases hphase with hclient | ⟨rest, hclient⟩ | hclient
  · simp only [clientStep, hclient, hput, fileName_block, hsource] at hstep
    cases hstep
    refine ⟨⟨hsource, .inr (.inl ⟨file, rfl⟩), ?_⟩, by simp [hclient], ?_⟩
    · simp [hclosed, hclient]
    · simp [hclient, Client.toSend]
  · cases rest with
    | nil =>
      simp only [clientStep, hclient] at hstep
      cases hstep
      refine ⟨⟨hsource, .inr (.inr rfl), ?_⟩, by simp [hclient], ?_⟩
      · simp
      · simp [hclient, Client.toSend]
    | cons b rest =>
      simp only [clientStep, hclient] at hstep
      cases hstep
      refine ⟨⟨hsource, .inr (.inl ⟨_, rfl⟩), ?_⟩, by simp [hclient], ?_⟩
      · simp [hclosed, hclient]
      · simp only [hclient, Client.toSend, Channel.pending_write, List.append_assoc,
          List.take_append_drop]
  · simp only [clientStep, hclient] at hstep
    cases hstep

theorem uploadServer_client (hput : c.transfer = .put) (hu : Uploading c file s)
    (h : UploadServer c file stale acts s) (hstep : clientStep env c s k = some s') :
    UploadServer c file stale (acts ++ [.client k]) s' := by
  obtain ⟨-, hnotDone, hmoved⟩ := clientStep_upload hput hu hstep
  obtain ⟨hserver', hcommd', hfiles'⟩ := clientStep_keeps hstep
  cases h with
  | fresh hserver hsizes hcommd hstream =>
    exact .fresh (hserver'.trans hserver) (by rw [serverSizes_client, hsizes])
      (hcommd'.trans hcommd) (hmoved.trans hstream)
  | misread hserver hcommd m hread hm =>
    exact .misread (by rwa [hserver']) (by rwa [hcommd']) m (by rwa [commandRead_client]) hm
  | whole hcommd m written hread hm hwritten hstream hserver =>
    refine .whole (by rwa [hcommd']) m written (by rwa [commandRead_client]) hm
      (by rwa [hfiles']) (by rwa [hmoved]) ?_
    rcases hserver with hserver | ⟨-, hdone, -⟩
    · exact .inl (hserver'.trans hserver)
    · exact absurd hdone hnotDone

/-- The first step of the server: it has the whole block, or its buffer differs from it. -/
theorem uploadServer_command (hput : c.transfer = .put) (hstale : stale.length = blockSize)
    (hu : Uploading c file s) (hserver : s.server = .start) (hsizes : serverSizes acts = [])
    (hcommd : s.commd = stale)
    (hstream : s.up.pending ++ s.client.toSend c file = c.block ++ file)
    (hstep : serverStep env s k = some s') :
    UploadServer c file stale (acts ++ [.server k]) s' := by
  have hopen : s.up.closed = true → s.up.pending ≠ [] := by
    intro hclosed
    rw [hu.closed.mp hclosed, Client.toSend_done, List.append_nil] at hstream
    simp [hstream, block_ne_nil]
  obtain ⟨up, hk, -, hrest, rfl⟩ := serverStep_command c _ file hserver hopen hstream hstep
  rw [hcommd]
  by_cases hblock : c.block.take k ++ stale.drop k = c.block
  · rw [dispatch_put env hput hblock]
    exact .whole hblock k [] (commandRead_first hsizes) hk (Files.create_same ..) hrest (.inl rfl)
  · obtain ⟨hstarted, hkept, -⟩ := dispatch_keeps env
      { s with up := up, commd := c.block.take k ++ stale.drop k }
    refine .misread hstarted (by rwa [hkept]) k (commandRead_first hsizes) ?_
    intro hfull
    apply hblock
    rw [hfull, List.take_of_length_le (by rw [length_block]), List.drop_eq_nil_of_le
      (by rw [hstale]), List.append_nil]

theorem uploadServer_server (hput : c.transfer = .put) (hstale : stale.length = blockSize)
    (hu : Uploading c file s) (h : UploadServer c file stale acts s)
    (hstep : serverStep env s k = some s') :
    UploadServer c file stale (acts ++ [.server k]) s' := by
  cases h with
  | fresh hserver hsizes hcommd hstream =>
    exact uploadServer_command hput hstale hu hserver hsizes hcommd hstream hstep
  | misread hserver hcommd m hread hm =>
    obtain ⟨hserver', hcommd'⟩ := serverStep_keeps hserver hstep
    exact .misread hserver' (by rwa [hcommd']) m (commandRead_later hread) hm
  | whole hcommd m written hread hm hwritten hstream hserver =>
    rcases hserver with hserver | ⟨hserver, -⟩
    · simp only [serverStep, hserver] at hstep
      split at hstep
      · cases hstep
      · next up hup =>
        cases hstep
        rcases Channel.read_cases hup with ⟨-, hempty, hclosed, rfl⟩ | ⟨hne, -⟩
        · exact .whole hcommd m written (commandRead_later hread) hm hwritten hstream
            (.inr ⟨rfl, hu.closed.mp hclosed, hempty⟩)
        · exact absurd rfl hne
      · next b buffer up hup =>
        cases hstep
        rcases Channel.read_cases hup with ⟨hnil, -⟩ | ⟨-, -, -, hpending, -⟩
        · cases hnil
        · refine .whole hcommd m (written ++ b :: buffer) (commandRead_later hread) hm
            (Files.append_same hwritten _) ?_ (.inl rfl)
          rw [hpending] at hstream
          simpa using hstream
    · simp only [serverStep, hserver] at hstep
      cases hstep

/-- What holds after every step of an upload. -/
theorem upload_step (hput : c.transfer = .put) (hstale : stale.length = blockSize) {a : Action}
    {u : Unit} (h : Uploading c file s ∧ UploadServer c file stale acts s)
    (hstep : step env c s a = .ok (s', u)) :
    Uploading c file s' ∧ UploadServer c file stale (acts ++ [a]) s' := by
  obtain ⟨hu, hserver⟩ := h
  cases a with
  | client k =>
    rw [step_client_iff] at hstep
    exact ⟨(clientStep_upload hput hu hstep).1, uploadServer_client hput hu hserver hstep⟩
  | server k =>
    rw [step_server_iff] at hstep
    obtain ⟨hclient, hfiles, hclosed⟩ := serverStep_frame hstep
    refine ⟨⟨?_, ?_, ?_⟩, uploadServer_server hput hstale hu hserver hstep⟩
    · rw [hfiles]
      exact hu.source
    · rw [hclient]
      exact hu.phase
    · rw [hclient, hclosed]
      exact hu.closed

/-- Both sides have closed the connection. -/
def Finished (s : System) : Prop := s.client = .done ∧ s.server = .done

theorem uploading_stuck (hput : c.transfer = .put) (hu : Uploading c file s)
    (hstuck : ∀ k, clientStep env c s k = none) : s.client = .done := by
  rcases hu.phase with hclient | ⟨rest, hclient⟩ | hclient
  · have hnone := hstuck 0
    simp [clientStep, hclient, hput, hu.source] at hnone
  · have hnone := hstuck 0
    cases rest <;> simp [clientStep, hclient] at hnone
  · exact hclient

/-- Where something can be read, a server that reads can move. -/
theorem server_reads (hup : s.up.pending ≠ [] ∨ s.up.closed = true)
    (hstuck : ∀ k, serverStep env s k = none) :
    s.server ≠ .start ∧ ∀ name, s.server ≠ .receiving name := by
  obtain ⟨k, ⟨bytes, up⟩, hread⟩ := Channel.exists_read (n := blockSize) (by decide) hup
  have hnone := hstuck k
  constructor
  · intro hserver
    simp [serverStep, hserver, hread] at hnone
  · intro name hserver
    cases bytes <;> simp [serverStep, hserver, hread] at hnone

/-- An upload is intact exactly if the read of the command takes the whole block. -/
theorem upload_intact_iff (hput : c.transfer = .put) (stale : Vector UInt8 blockSize)
    {clientFiles serverFiles : Files} (hfile : clientFiles c.name = some file) {t : System}
    {outs : List Unit}
    (hrun : run (step env c) (initial stale clientFiles serverFiles) acts = .ok (t, outs))
    (hstuck : Stuck (step env c) t) :
    (Finished t ∧ t.commd = c.block ∧ t.serverFiles c.name = some file) ↔
      commandRead acts = some blockSize := by
  have hinit : Uploading c file (initial stale clientFiles serverFiles) ∧
      UploadServer c file stale.toList [] (initial stale clientFiles serverFiles) := by
    refine ⟨⟨hfile, .inl rfl, ?_⟩, .fresh rfl rfl rfl ?_⟩
    · simp [initial]
    · simp [initial, Client.toSend]
  obtain ⟨hu, hserver⟩ := run_invariant_history
    (fun acts s => Uploading c file s ∧ UploadServer c file stale.toList acts s)
    (fun _ _ _ _ _ h hstep => upload_step hput (by simp) h hstep) hinit hrun
  rw [List.nil_append] at hserver
  obtain ⟨hclientStuck, hserverStuck⟩ := stuck_iff.mp hstuck
  have hdone := uploading_stuck hput hu hclientStuck
  obtain ⟨hstarted, hreceived⟩ := server_reads (.inr (hu.closed.mpr hdone)) hserverStuck
  cases hserver with
  | fresh hstart hsizes hcommd hstream => exact absurd hstart hstarted
  | misread hstart hcommd m hread hm =>
    constructor
    · intro h
      exact absurd h.2.1 hcommd
    · intro h
      rw [hread] at h
      cases h
      exact absurd rfl hm
  | whole hcommd m written hread hm hwritten hstream hends =>
    rcases hends with hreceiving | ⟨hend, -, hempty⟩
    · exact absurd hreceiving (hreceived _)
    · rw [hempty, hdone, Client.toSend_done, List.append_nil, List.append_nil] at hstream
      have hintact : written = file ↔ m = blockSize := by
        rw [hstream, ← length_block c]
        exact rest_append_eq_iff (by rw [length_block]; exact hm)
      simp only [Finished, hdone, hend, hcommd, hwritten, hread, Option.some.injEq, hintact,
        and_self, true_and]

/-- What of the file the server has not sent yet. -/
def Server.toSend : Server → List UInt8
  | .sending rest => rest
  | _ => []

@[simp] theorem Server.toSend_done : Server.toSend .done = [] := rfl

/-- A server that sends the file and then closes the stream. -/
def Serving (s : System) : Prop :=
  (∃ rest, s.server = .sending rest) ∧ s.down.closed = false ∨
    s.server = .done ∧ s.down.closed = true

/-- The client of a download: before the status, and while it writes what follows the first `m`
bytes of the status block. -/
inductive DownloadClient (c : Command) (file : List UInt8) (acts : List Action) (s : System) :
    Prop where
  | awaiting (hclient : s.client = .awaiting) (hsizes : (clientSizes acts).length = 1)
      (hstream : s.down.pending ++ s.server.toSend = statusYes ++ file)
  | opened (m : Nat) (written : List UInt8) (hread : statusRead acts = some m)
      (hm : m ≤ blockSize) (hwritten : s.clientFiles c.name = some written)
      (hstream : written ++ (s.down.pending ++ s.server.toSend) = statusYes.drop m ++ file)
      (hclient : s.client = .receiving ∨
        s.client = .done ∧ s.server = .done ∧ s.down.pending = [])

/-- A download before the server has read the command, after a command that is not the whole block,
and while the file is sent. -/
inductive Download (c : Command) (file stale : List UInt8) (acts : List Action) (s : System) :
    Prop where
  | fresh (hserver : s.server = .start) (hsizes : serverSizes acts = []) (hcommd : s.commd = stale)
      (hsource : s.serverFiles c.name = some file) (hdown : s.down = ⟨[], false⟩)
      (hclosed : s.up.closed = false)
      (hclient : s.client = .start ∧ clientSizes acts = [] ∧ s.up.pending = [] ∨
        s.client = .awaiting ∧ (clientSizes acts).length = 1 ∧ s.up.pending = c.block)
  | misread (hserver : s.server ≠ .start) (hcommd : s.commd ≠ c.block) (m : Nat)
      (hread : commandRead acts = some m) (hm : stale.drop m ≠ c.block.drop m)
  | whole (hcommd : s.commd = c.block) (m : Nat) (hread : commandRead acts = some m)
      (hm : stale.drop m = c.block.drop m) (hserver : Serving s)
      (hclient : DownloadClient c file acts s)

theorem length_statusYes : statusYes.length = blockSize := by
  rw [statusYes, status, List.length_cons, List.length_replicate]
  rfl

/-- The server moves bytes from the file to the stream. -/
theorem serverStep_serving (h : Serving s) (hstep : serverStep env s k = some s') :
    Serving s' ∧ s.server ≠ .done ∧
      s'.down.pending ++ s'.server.toSend = s.down.pending ++ s.server.toSend := by
  rcases h with ⟨⟨rest, hserver⟩, hclosed⟩ | ⟨hserver, -⟩
  · cases rest with
    | nil =>
      simp only [serverStep, hserver] at hstep
      cases hstep
      exact ⟨.inr ⟨rfl, rfl⟩, by simp [hserver], by simp [hserver, Server.toSend]⟩
    | cons b rest =>
      simp only [serverStep, hserver] at hstep
      cases hstep
      refine ⟨.inl ⟨⟨_, rfl⟩, by simpa using hclosed⟩, by simp [hserver], ?_⟩
      simp only [hserver, Server.toSend, Channel.pending_write, List.append_assoc,
        List.take_append_drop]
  · simp only [serverStep, hserver] at hstep
    cases hstep

/-- The first step of the server: it has the whole block, or its buffer differs from it. -/
theorem download_command (hget : c.transfer = .get) (hserver : s.server = .start)
    (hsizes : serverSizes acts = []) (hcommd : s.commd = stale)
    (hsource : s.serverFiles c.name = some file) (hdown : s.down = ⟨[], false⟩)
    (hclosed : s.up.closed = false)
    (hclient : s.client = .start ∧ clientSizes acts = [] ∧ s.up.pending = [] ∨
      s.client = .awaiting ∧ (clientSizes acts).length = 1 ∧ s.up.pending = c.block)
    (hstep : serverStep env s k = some s') :
    Download c file stale (acts ++ [.server k]) s' := by
  have hopen : s.up.closed = true → s.up.pending ≠ [] := by
    intro hclosed'
    rw [hclosed] at hclosed'
    cases hclosed'
  rcases hclient with ⟨-, -, hempty⟩ | ⟨hclient, hsizes', hblock⟩
  · obtain ⟨-, -, hne, -⟩ := serverStep_command c c.block [] hserver hopen
      (by rw [hempty, List.nil_append, List.append_nil]) hstep
    exact absurd hempty hne
  · obtain ⟨up, -, -, -, rfl⟩ := serverStep_command c [] [] hserver hopen (by rw [hblock]) hstep
    rw [hcommd]
    by_cases hwhole : c.block.take k ++ stale.drop k = c.block
    · have hdispatch := dispatch_get env
        (s := { s with up := up, commd := c.block.take k ++ stale.drop k }) hget hwhole hsource
      rw [hdispatch]
      refine .whole hwhole k (commandRead_first hsizes) (buffer_eq_block_iff.mp hwhole)
        (.inl ⟨⟨file, rfl⟩, by simp [hdown]⟩) (.awaiting hclient ?_ ?_)
      · rwa [clientSizes_server]
      · simp [hdown, Server.toSend]
    · obtain ⟨hstarted, hkept, -⟩ := dispatch_keeps env
        { s with up := up, commd := c.block.take k ++ stale.drop k }
      refine .misread hstarted (by rwa [hkept]) k (commandRead_first hsizes) ?_
      intro hrest
      exact hwhole (buffer_eq_block_iff.mpr hrest)

theorem download_server (hget : c.transfer = .get) (h : Download c file stale acts s)
    (hstep : serverStep env s k = some s') : Download c file stale (acts ++ [.server k]) s' := by
  cases h with
  | fresh hserver hsizes hcommd hsource hdown hclosed hclient =>
    exact download_command hget hserver hsizes hcommd hsource hdown hclosed hclient hstep
  | misread hserver hcommd m hread hm =>
    obtain ⟨hserver', hcommd'⟩ := serverStep_keeps hserver hstep
    exact .misread hserver' (by rwa [hcommd']) m (commandRead_later hread) hm
  | whole hcommd m hread hm hserver hclient =>
    obtain ⟨hserver', hnotDone, hmoved⟩ := serverStep_serving hserver hstep
    obtain ⟨hclient', hfiles', -⟩ := serverStep_frame hstep
    have hstarted : s.server ≠ .start := by
      rcases hserver with ⟨⟨rest, hserver⟩, -⟩ | ⟨hserver, -⟩ <;> simp [hserver]
    obtain ⟨-, hcommd'⟩ := serverStep_keeps hstarted hstep
    refine .whole (hcommd'.trans hcommd) m (commandRead_later hread) hm hserver' ?_
    cases hclient with
    | awaiting hclient hsizes hstream =>
      exact .awaiting (hclient'.trans hclient) (by rwa [clientSizes_server])
        (hmoved.trans hstream)
    | opened l written hstatus hl hwritten hstream hclient =>
      refine .opened l written (by rwa [statusRead_server]) hl (by rwa [hfiles']) (by rwa [hmoved])
        ?_
      rcases hclient with hclient | ⟨-, hdone, -⟩
      · exact .inl (hclient'.trans hclient)
      · exact absurd hdone hnotDone

/-- A step of the client while the file is sent. -/
theorem downloadClient_client (hserver : Serving s) (h : DownloadClient c file acts s)
    (hstep : clientStep env c s k = some s') :
    Serving s' ∧ DownloadClient c file (acts ++ [.client k]) s' := by
  cases h with
  | awaiting hclient hsizes hstream =>
    simp only [clientStep, hclient] at hstep
    split at hstep
    · cases hstep
    next bytes down hread =>
    rcases Channel.read_cases hread with ⟨-, hempty, hclosed, -⟩ | ⟨hne, hlen, hk, hpending, hkept⟩
    · rcases hserver with ⟨-, hopen⟩ | ⟨hdone, -⟩
      · rw [hclosed] at hopen
        cases hopen
      · rw [hempty, hdone] at hstream
        cases hstream
    rw [hpending, List.append_assoc] at hstream
    obtain ⟨htaken, hrest⟩ := read_block hstream (by rw [hlen, length_statusYes]; exact hk)
    rw [hlen] at htaken hrest
    have hhead : bytes.headD env.garbage ≠ 78 := by
      cases k with
      | zero => exact absurd (List.eq_nil_of_length_eq_zero hlen) hne
      | succ k =>
        rw [htaken, statusYes, status, List.take_succ_cons, List.headD_cons]
        decide
    rw [if_neg hhead] at hstep
    cases hstep
    refine ⟨?_, .opened k [] (statusRead_second hsizes) hk ?_ hrest (.inl rfl)⟩
    · simp only [Serving, hkept]
      exact hserver
    · simp
  | opened m written hstatus hm hwritten hstream hclient =>
    rcases hclient with hclient | ⟨hclient, -⟩
    · simp only [clientStep, hclient] at hstep
      split at hstep
      · cases hstep
      · next down hread =>
        cases hstep
        rcases Channel.read_cases hread with ⟨-, hempty, hclosed, rfl⟩ | ⟨hne, -⟩
        · refine ⟨hserver, .opened m written (statusRead_later hstatus) hm hwritten hstream
            (.inr ⟨rfl, ?_, hempty⟩)⟩
          rcases hserver with ⟨-, hopen⟩ | ⟨hdone, -⟩
          · rw [hclosed] at hopen
            cases hopen
          · exact hdone
        · exact absurd rfl hne
      · next b buffer down hread =>
        cases hstep
        rcases Channel.read_cases hread with ⟨hnil, -⟩ | ⟨-, -, -, hpending, hkept⟩
        · cases hnil
        · refine ⟨?_, .opened m (written ++ b :: buffer) (statusRead_later hstatus) hm ?_ ?_
            (.inl rfl)⟩
          · simp only [Serving, hkept]
            exact hserver
          · rw [fileName_block]
            exact Files.append_same hwritten _
          · rw [hpending] at hstream
            simpa using hstream
    · simp only [clientStep, hclient] at hstep
      cases hstep

theorem download_client (hget : c.transfer = .get) (h : Download c file stale acts s)
    (hstep : clientStep env c s k = some s') : Download c file stale (acts ++ [.client k]) s' := by
  obtain ⟨hserver', hcommd', hfiles'⟩ := clientStep_keeps hstep
  cases h with
  | fresh hserver hsizes hcommd hsource hdown hclosed hclient =>
    rcases hclient with ⟨hclient, hsizes', hempty⟩ | ⟨hclient, -, -⟩
    · simp only [clientStep, hclient, hget] at hstep
      cases hstep
      refine .fresh hserver (by rwa [serverSizes_client]) hcommd hsource hdown hclosed
        (.inr ⟨rfl, ?_, ?_⟩)
      · rw [clientSizes_client, hsizes']
        rfl
      · rw [Channel.pending_write, hempty, List.nil_append]
    · simp [clientStep, hclient, hdown, Channel.read] at hstep
  | misread hserver hcommd m hread hm =>
    exact .misread (by rwa [hserver']) (by rwa [hcommd']) m (by rwa [commandRead_client]) hm
  | whole hcommd m hread hm hserver hclient =>
    obtain ⟨hserving, hdownload⟩ := downloadClient_client hserver hclient hstep
    exact .whole (hcommd'.trans hcommd) m (by rwa [commandRead_client]) hm hserving hdownload

/-- What holds after every step of a download. -/
theorem download_step (hget : c.transfer = .get) {a : Action} {u : Unit}
    (h : Download c file stale acts s) (hstep : step env c s a = .ok (s', u)) :
    Download c file stale (acts ++ [a]) s' := by
  cases a with
  | client k =>
    rw [step_client_iff] at hstep
    exact download_client hget h hstep
  | server k =>
    rw [step_server_iff] at hstep
    exact download_server hget h hstep

/-- Where something can be read, a client that reads can move. -/
theorem client_reads (hdown : s.down.pending ≠ [] ∨ s.down.closed = true)
    (hstuck : ∀ k, clientStep env c s k = none) : s.client ≠ .awaiting ∧ s.client ≠ .receiving := by
  obtain ⟨k, ⟨bytes, down⟩, hread⟩ := Channel.exists_read (n := blockSize) (by decide) hdown
  have hnone := hstuck k
  constructor
  · intro hclient
    simp only [clientStep, hclient, hread] at hnone
    split at hnone <;> cases hnone
  · intro hclient
    cases bytes <;> simp [clientStep, hclient, hread] at hnone

theorem serving_stuck (h : Serving s) (hstuck : ∀ k, serverStep env s k = none) :
    s.server = .done ∧ s.down.closed = true := by
  rcases h with ⟨⟨rest, hserver⟩, -⟩ | h
  · have hnone := hstuck 0
    cases rest <;> simp [serverStep, hserver] at hnone
  · exact h

/-- A download is intact exactly if the buffer of the server holds the whole block after the read of
the command and the read of the status takes the whole block. -/
theorem download_intact_iff (hget : c.transfer = .get) (stale : Vector UInt8 blockSize)
    {clientFiles serverFiles : Files} (hfile : serverFiles c.name = some file) {t : System}
    {outs : List Unit}
    (hrun : run (step env c) (initial stale clientFiles serverFiles) acts = .ok (t, outs))
    (hstuck : Stuck (step env c) t) :
    (Finished t ∧ t.commd = c.block ∧ t.clientFiles c.name = some file) ↔
      (∃ m, commandRead acts = some m ∧ stale.toList.drop m = c.block.drop m) ∧
        statusRead acts = some blockSize := by
  have hinit : Download c file stale.toList [] (initial stale clientFiles serverFiles) :=
    .fresh rfl rfl rfl hfile rfl rfl (.inl ⟨rfl, rfl, rfl⟩)
  have hdownload := run_invariant_history (fun acts s => Download c file stale.toList acts s)
    (fun _ _ _ _ _ h hstep => download_step hget h hstep) hinit hrun
  rw [List.nil_append] at hdownload
  obtain ⟨hclientStuck, hserverStuck⟩ := stuck_iff.mp hstuck
  cases hdownload with
  | fresh hserver hsizes hcommd hsource hdown hclosed hclient =>
    rcases hclient with ⟨hclient, -, -⟩ | ⟨-, -, hblock⟩
    · have hnone := hclientStuck 0
      simp [clientStep, hclient, hget] at hnone
    · have hpending : t.up.pending ≠ [] := by
        rw [hblock]
        exact block_ne_nil c
      exact absurd hserver (server_reads (.inl hpending) hserverStuck).1
  | misread hserver hcommd m hread hm =>
    constructor
    · intro h
      exact absurd h.2.1 hcommd
    · intro h
      obtain ⟨⟨m', hread', hm'⟩, -⟩ := h
      rw [hread] at hread'
      cases hread'
      exact absurd hm' hm
  | whole hcommd m hread hm hserver hclient =>
    obtain ⟨hdone, hclosed⟩ := serving_stuck hserver hserverStuck
    obtain ⟨hnotAwaiting, hnotReceiving⟩ := client_reads (.inr hclosed) hclientStuck
    cases hclient with
    | awaiting hclient _ _ => exact absurd hclient hnotAwaiting
    | opened l written hstatus hl hwritten hstream hclient =>
      rcases hclient with hclient | ⟨hclient, -, hempty⟩
      · exact absurd hclient hnotReceiving
      · rw [hempty, hdone, Server.toSend_done, List.append_nil, List.append_nil] at hstream
        have hintact : written = file ↔ l = blockSize := by
          rw [hstream, ← length_statusYes]
          exact rest_append_eq_iff (by rw [length_statusYes]; exact hl)
        simp only [Finished, hclient, hdone, hcommd, hwritten, hstatus, Option.some.injEq,
          hintact, and_self, true_and]
        exact ⟨fun h => ⟨⟨m, hread, hm⟩, h⟩, fun h => h.2⟩

/-- The files of the side that sends. -/
def senderFiles (c : Command) (clientFiles serverFiles : Files) : Files :=
  match c.transfer with
  | .get => serverFiles
  | .put => clientFiles

def receiverFiles (c : Command) (s : System) : Files :=
  match c.transfer with
  | .get => s.clientFiles
  | .put => s.serverFiles

/-- The command was read whole and the receiver has the file of the sender. -/
def Intact (c : Command) (file : List UInt8) (s : System) : Prop :=
  s.commd = c.block ∧ receiverFiles c s c.name = some file

instance (s : System) : Decidable (Finished s) := inferInstanceAs (Decidable (_ ∧ _))

instance (c : Command) (file : List UInt8) (s : System) : Decidable (Intact c file s) :=
  inferInstanceAs (Decidable (_ ∧ _))

/-- The reads of the blocks leave nothing: that of the command, and for a download that of the
status. The server of a download does not read on, so what its first read leaves does no harm if it
is in the buffer already. -/
def ReadsBlocks (c : Command) (stale : List UInt8) (acts : List Action) : Prop :=
  match c.transfer with
  | .put => commandRead acts = some blockSize
  | .get =>
      (∃ m, commandRead acts = some m ∧ stale.drop m = c.block.drop m) ∧
        statusRead acts = some blockSize

/-- However the stream is segmented, once neither side can move the transfer is intact exactly if
the blocks were read whole. -/
theorem transfer_intact_iff (env : Env) (c : Command) (stale : Vector UInt8 blockSize)
    (clientFiles serverFiles : Files) (file : List UInt8)
    (hfile : senderFiles c clientFiles serverFiles c.name = some file) (acts : List Action)
    (t : System) (outs : List Unit)
    (hrun : run (step env c) (initial stale clientFiles serverFiles) acts = .ok (t, outs))
    (hstuck : Stuck (step env c) t) :
    (Finished t ∧ Intact c file t) ↔ ReadsBlocks c stale.toList acts := by
  cases htransfer : c.transfer with
  | get =>
    simp only [senderFiles, htransfer] at hfile
    simp only [Intact, receiverFiles, ReadsBlocks, htransfer]
    exact download_intact_iff htransfer stale hfile hrun hstuck
  | put =>
    simp only [senderFiles, htransfer] at hfile
    simp only [Intact, receiverFiles, ReadsBlocks, htransfer]
    exact upload_intact_iff htransfer stale hfile hrun hstuck

def getF : Command := ⟨.get, [102], by simp, by simp [blockSize]⟩
def putF : Command := ⟨.put, [102], by simp, by simp [blockSize]⟩

/-- A file of three bytes under the name `f` and no other. -/
def oneFile : Files := Function.update (fun _ => none) [102] (some [1, 2, 3])

theorem transfer_intact_whole_blocks :
    ∃ acts t outs, run (step ⟨0, []⟩ getF)
        (initial (Vector.replicate blockSize 0) (fun _ => none) oneFile) acts = .ok (t, outs) ∧
      Finished t ∧ Intact getF [1, 2, 3] t := by
  obtain ⟨⟨s, outs₁⟩, hfirst, -⟩ : ∃ r, run (step ⟨0, []⟩ getF)
      (initial (Vector.replicate blockSize 0) (fun _ => none) oneFile)
      [.client 0, .server 256, .client 256] = .ok r ∧ r.1.client = .receiving := by
    apply exists_ok
    decide +kernel
  obtain ⟨acts, t, outs₂, hrest, hstuck⟩ := connection_ends ⟨0, []⟩ getF s
  have hrun := run_append_iff.mpr ⟨s, outs₁, outs₂, hfirst, hrest, rfl⟩
  refine ⟨_, t, _, hrun, ?_⟩
  exact (transfer_intact_iff ⟨0, []⟩ getF (Vector.replicate blockSize 0) (fun _ => none) oneFile
    [1, 2, 3] rfl _ t _ hrun hstuck).mpr ⟨⟨256, rfl, by decide⟩, rfl⟩

/-- The server reads a hundred bytes of the command; the file then starts with the other 156. -/
theorem upload_split_command :
    ∃ r, run (step ⟨0, []⟩ putF)
        (initial (Vector.replicate blockSize 0) oneFile (fun _ => none))
        [.client 0, .client 0, .client 0, .server 100, .server 159, .server 0] = .ok r ∧
      Finished r.1 ∧ r.1.serverFiles [102] = some (List.replicate 156 0 ++ [1, 2, 3]) ∧
      ¬ Intact putF [1, 2, 3] r.1 := by
  apply exists_ok
  decide +kernel

end BackupSoftware.Ftp
