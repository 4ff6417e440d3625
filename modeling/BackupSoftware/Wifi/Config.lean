import BackupSoftware.Library.Strings

/-!
# Settings of the WiFi module and their read back

A setting is sent to the module as one line of comma-separated fields, and the answer
to a query is cut into tokens at `=`, `,` and CR. Network name and key are free text.
An open network has no key; the query then reads the line feed that ends the answer.
-/

namespace BackupSoftware.Wifi

open BackupSoftware.Library.Strings

/-- The `WIFI_*` return codes. -/
def wifiEok : Int := 0
def wifiError : Int := -1
def wifiEempty : Int := -4

def ascii (s : List Char) : List UInt8 := s.map Char.toUInt8

def cr : UInt8 := 13
def lf : UInt8 := 10
def comma : UInt8 := 44

/-- The separators `"=,\r"` of `wifi_get_wap` and `wifi_get_wakey`. -/
def seps (b : UInt8) : Bool := b = 61 ∨ b = comma ∨ b = cr

structure WifiWap where
  wifiMode : Vector UInt8 6
  ssid : Vector UInt8 128
  channel : Vector UInt8 5

structure WifiWakey where
  auth : Vector UInt8 7
  encry : Vector UInt8 8
  key : Vector UInt8 64

/-- A token that does not fit the field it is copied to. -/
inductive Fault where
  | fieldOverrun
deriving DecidableEq, Repr

variable {σ : Type} {k m n : Nat}

section Code

variable (respond : σ → List UInt8 → Option (σ × List UInt8))

/-- The state of the module, the return code and the receive buffer. `respond` is what the module
does with a command, `none` if the serial line fails. -/
def sendAT (fd : Int) (cmd : List UInt8) (s : σ) : σ × Int × List UInt8 :=
  if fd = 0 then (s, wifiError, [])
  else
    match respond s cmd with
    | none => (s, wifiError, [])
    | some (s', []) => (s', wifiEempty, [])
    | some (s', b :: rxbuf) => (s', wifiEok, b :: rxbuf)

/-- What stands behind the first two tokens, the echo of the command and `+ok`. -/
def skipEcho (buf : List UInt8) : Option (List UInt8) :=
  match strtok seps buf with
  | none => none
  | some (_, rest) =>
      match strtok seps rest with
      | none => none
      | some (_, rest) => some rest

/-- The next three tokens are copied to three fields. -/
def readFields (buf : List UInt8) (x : Vector UInt8 k) (y : Vector UInt8 m) (z : Vector UInt8 n) :
    Except Fault ((Vector UInt8 k × Vector UInt8 m × Vector UInt8 n) × Int) :=
  match skipEcho buf with
  | none => .ok ((x, y, z), wifiError)
  | some rest =>
  match strtok seps rest with
  | none => .ok ((x, y, z), wifiError)
  | some (p, rest) =>
  match strcpy x p with
  | none => .error .fieldOverrun
  | some x =>
  match strtok seps rest with
  | none => .ok ((x, y, z), wifiError)
  | some (p, rest) =>
  match strcpy y p with
  | none => .error .fieldOverrun
  | some y =>
  match strtok seps rest with
  | none => .ok ((x, y, z), wifiError)
  | some (p, _) =>
  match strcpy z p with
  | none => .error .fieldOverrun
  | some z => .ok ((x, y, z), wifiEok)

/-- The part that `wifi_get_wap` and `wifi_get_wakey` share. -/
def getFields (fd : Int) (query : List UInt8) (s : σ) (x : Vector UInt8 k) (y : Vector UInt8 m)
    (z : Vector UInt8 n) :
    Except Fault (σ × (Vector UInt8 k × Vector UInt8 m × Vector UInt8 n) × Int) :=
  let answer := sendAT respond fd query s
  if answer.2.1 < 0 then .ok (answer.1, (x, y, z), wifiError)
  else
    match readFields answer.2.2 x y z with
    | .error e => .error e
    | .ok (fields, ret) => .ok (answer.1, fields, ret)

def wapName : List UInt8 := ascii ['A', 'T', '+', 'W', 'A', 'P']
def wakeyName : List UInt8 := ascii ['A', 'T', '+', 'W', 'A', 'K', 'E', 'Y']

def wifiGetWap (fd : Int) (s : σ) (wap : WifiWap) : Except Fault (σ × WifiWap × Int) :=
  match getFields respond fd (wapName ++ [cr]) s wap.wifiMode wap.ssid wap.channel with
  | .error e => .error e
  | .ok (s', (wifiMode, ssid, channel), ret) => .ok (s', ⟨wifiMode, ssid, channel⟩, ret)

def wifiGetWakey (fd : Int) (s : σ) (wakey : WifiWakey) : Except Fault (σ × WifiWakey × Int) :=
  match getFields respond fd (wakeyName ++ [cr]) s wakey.auth wakey.encry wakey.key with
  | .error e => .error e
  | .ok (s', (auth, encry, key), ret) => .ok (s', ⟨auth, encry, key⟩, ret)

def wifiModes : List (List UInt8) :=
  [ascii ['1', '1', 'B', 'G'], ascii ['1', '1', 'B'], ascii ['1', '1', 'G'],
    ascii ['1', '1', 'B', 'G', 'N'], ascii ['1', '1', 'N']]

def channels : List (List UInt8) :=
  [ascii ['C', 'H', '1'], ascii ['A', 'U', 'T', 'O'], ascii ['C', 'H', '2'], ascii ['C', 'H', '3'],
    ascii ['C', 'H', '4'], ascii ['C', 'H', '5'], ascii ['C', 'H', '6'], ascii ['C', 'H', '7'],
    ascii ['C', 'H', '8'], ascii ['C', 'H', '9'], ascii ['C', 'H', '1', '0'],
    ascii ['C', 'H', '1', '1']]

def authOpen : List UInt8 := ascii ['O', 'P', 'E', 'N']

def auths : List (List UInt8) :=
  [authOpen, ascii ['S', 'H', 'A', 'R', 'E', 'D'], ascii ['W', 'P', 'A', 'P', 'S', 'K']]

def encrys : List (List UInt8) :=
  [ascii ['N', 'O', 'N', 'E'], ascii ['W', 'E', 'P', '-', 'H'], ascii ['W', 'E', 'P', '-', 'A'],
    ascii ['T', 'K', 'I', 'P'], ascii ['A', 'E', 'S'], ascii ['T', 'K', 'I', 'P', 'A', 'E', 'S']]

def wapText (wap : WifiWap) : List UInt8 :=
  text wap.wifiMode ++ comma :: text wap.ssid ++ comma :: text wap.channel

/-- The key is not sent for an open network. -/
def wakeyText (wakey : WifiWakey) : List UInt8 :=
  text wakey.auth ++ comma :: text wakey.encry ++
    if text wakey.auth ≠ authOpen then comma :: text wakey.key else []

/-- Sends the command `name=argument`. -/
def setText (fd : Int) (name argument : List UInt8) (s : σ) : σ × Int :=
  let answer := sendAT respond fd (name ++ 61 :: argument ++ [cr]) s
  if answer.2.1 < 0 then (answer.1, wifiError) else (answer.1, wifiEok)

/-- Two fields are checked against the values the module knows before the text is sent. -/
def setChecked (fd : Int) (s : σ) (x : List UInt8) (xs : List (List UInt8)) (y : List UInt8)
    (ys : List (List UInt8)) (name argument : List UInt8) : σ × Int :=
  if x ∉ xs then (s, wifiError)
  else if y ∉ ys then (s, wifiError)
  else setText respond fd name argument s

def wifiSetWap (fd : Int) (s : σ) (wap : WifiWap) : σ × Int :=
  setChecked respond fd s (text wap.wifiMode) wifiModes (text wap.channel) channels wapName
    (wapText wap)

def wifiSetWakey (fd : Int) (s : σ) (wakey : WifiWakey) : σ × Int :=
  setChecked respond fd s (text wakey.auth) auths (text wakey.encry) encrys wakeyName
    (wakeyText wakey)

end Code

/-- The answer to the query `name` when the module holds `argument`. -/
def reply (name argument : List UInt8) : List UInt8 :=
  name ++ [cr, cr, lf] ++ ascii ['+', 'o', 'k', '='] ++ argument ++ [cr, lf]

/-- The module keeps the argument of a setting and answers the following query with it. -/
def KeepsText (respond : σ → List UInt8 → Option (σ × List UInt8)) (name : List UInt8) : Prop :=
  ∀ s argument s' answer, respond s (name ++ 61 :: argument ++ [cr]) = some (s', answer) →
    ∃ s'', respond s' (name ++ [cr]) = some (s'', reply name argument)

def WifiWap.Same (wap wap' : WifiWap) : Prop :=
  text wap.wifiMode = text wap'.wifiMode ∧ text wap.ssid = text wap'.ssid ∧
    text wap.channel = text wap'.channel

def WifiWakey.Same (wakey wakey' : WifiWakey) : Prop :=
  text wakey.auth = text wakey'.auth ∧ text wakey.encry = text wakey'.encry ∧
    text wakey.key = text wakey'.key

/-- Free text that is one token. -/
def OneToken (s : List UInt8) : Prop := s ≠ [] ∧ ∀ b ∈ s, seps b = false

instance (s : List UInt8) : Decidable (OneToken s) :=
  decidable_of_iff (s ≠ [] ∧ s.all (fun b => !seps b) = true) (by simp [OneToken])

/-- The next three tokens of `rest`. -/
def ThreeTokens (rest a b c : List UInt8) : Prop :=
  ∃ rest₁ rest₂ rest₃, strtok seps rest = some (a, rest₁) ∧ strtok seps rest₁ = some (b, rest₂) ∧
    strtok seps rest₂ = some (c, rest₃)

theorem skipEcho_reply {name : List UInt8} (hname : OneToken name) (argument : List UInt8) :
    skipEcho (reply name argument) = some (argument ++ [cr, lf]) := by
  have hecho : strtok seps (reply name argument) =
      some (name, cr :: ([lf, 43, 111, 107] ++ 61 :: (argument ++ [cr, lf]))) := by
    have hsplit : reply name argument =
        name ++ cr :: cr :: ([lf, 43, 111, 107] ++ 61 :: (argument ++ [cr, lf])) := by
      have hplus : ascii ['+', 'o', 'k', '='] = [43, 111, 107, 61] := by decide
      simp [reply, hplus]
    rw [hsplit, strtok_token hname.1 hname.2]
    · rfl
    · intro b s h
      cases h
      rfl
  have hok : strtok seps (cr :: ([lf, 43, 111, 107] ++ 61 :: (argument ++ [cr, lf]))) =
      some ([lf, 43, 111, 107], argument ++ [cr, lf]) := by
    have htoken : OneToken [lf, 43, 111, 107] := by decide
    rw [strtok_of_delimiter rfl, strtok_token htoken.1 htoken.2]
    · rfl
    · intro b s h
      cases h
      rfl
  simp only [skipEcho, hecho, hok]

theorem readFields_eok {buf rest : List UInt8} (hskip : skipEcho buf = some rest)
    {x x' : Vector UInt8 k} {y y' : Vector UInt8 m} {z z' : Vector UInt8 n}
    (h : readFields buf x y z = .ok ((x', y', z'), wifiEok)) :
    ∃ a b c, ThreeTokens rest a b c ∧ strcpy x a = some x' ∧ strcpy y b = some y' ∧
      strcpy z c = some z' := by
  simp only [readFields, hskip] at h
  split at h
  · cases h
  next a rest₁ ha =>
  split at h
  · cases h
  next x₁ hx =>
  split at h
  · cases h
  next b rest₂ hb =>
  split at h
  · cases h
  next y₁ hy =>
  split at h
  · cases h
  next c rest₃ hc =>
  split at h
  · cases h
  next z₁ hz =>
  cases h
  exact ⟨a, b, c, ⟨rest₁, rest₂, rest₃, ha, hb, hc⟩, hx, hy, hz⟩

theorem threeTokens_ne_zero {rest a b c : List UInt8} (hrest : ∀ x ∈ rest, x ≠ 0)
    (h : ThreeTokens rest a b c) :
    (∀ x ∈ a, x ≠ 0) ∧ (∀ x ∈ b, x ≠ 0) ∧ ∀ x ∈ c, x ≠ 0 := by
  obtain ⟨rest₁, rest₂, rest₃, h₁, h₂, h₃⟩ := h
  obtain ⟨-, -, hmem₁, hsub₁⟩ := strtok_spec h₁
  obtain ⟨-, -, hmem₂, hsub₂⟩ := strtok_spec h₂
  obtain ⟨-, -, hmem₃, -⟩ := strtok_spec h₃
  refine ⟨?_, ?_, ?_⟩
  · intro x hx
    exact hrest x (hmem₁ x hx)
  · intro x hx
    exact hrest x (hsub₁ x (hmem₂ x hx))
  · intro x hx
    exact hrest x (hsub₁ x (hsub₂ x (hmem₃ x hx)))

/-- The fields read are the three tokens behind the echo. -/
theorem readFields_texts_iff {buf rest : List UInt8} (hskip : skipEcho buf = some rest)
    (hrest : ∀ b ∈ rest, b ≠ 0) (x : Vector UInt8 k) (y : Vector UInt8 m) (z : Vector UInt8 n)
    {a b c : List UInt8} (ha : a.length < k) (hb : b.length < m) (hc : c.length < n) :
    (∃ x' y' z', readFields buf x y z = .ok ((x', y', z'), wifiEok) ∧ text x' = a ∧ text y' = b ∧
      text z' = c) ↔ ThreeTokens rest a b c := by
  constructor
  · intro h
    obtain ⟨x', y', z', hread, rfl, rfl, rfl⟩ := h
    obtain ⟨a', b', c', htokens, hx, hy, hz⟩ := readFields_eok hskip hread
    obtain ⟨ha', hb', hc'⟩ := threeTokens_ne_zero hrest htokens
    rw [text_of_strcpy hx ha', text_of_strcpy hy hb', text_of_strcpy hz hc']
    exact htokens
  · intro h
    obtain ⟨ha', hb', hc'⟩ := threeTokens_ne_zero hrest h
    obtain ⟨rest₁, rest₂, rest₃, h₁, h₂, h₃⟩ := h
    obtain ⟨x', hx, hxt⟩ := text_strcpy x ha ha'
    obtain ⟨y', hy, hyt⟩ := text_strcpy y hb hb'
    obtain ⟨z', hz, hzt⟩ := text_strcpy z hc hc'
    refine ⟨x', y', z', ?_, hxt, hyt, hzt⟩
    simp only [readFields, hskip, h₁, hx, h₂, hy, h₃, hz]

theorem strtok_field {a : List UInt8} (ha : OneToken a) {c : UInt8} (hc : seps c = true)
    (rest : List UInt8) : strtok seps (a ++ c :: rest) = some (a, rest) := by
  rw [strtok_token ha.1 ha.2]
  · rfl
  · intro b s h
    cases h
    exact hc

theorem threeTokens_iff {a b c : List UInt8} :
    ThreeTokens (a ++ comma :: b ++ comma :: c ++ [cr, lf]) a b c ↔
      OneToken a ∧ OneToken b ∧ OneToken c := by
  constructor
  · intro h
    obtain ⟨rest₁, rest₂, rest₃, h₁, h₂, h₃⟩ := h
    obtain ⟨hne₁, hsep₁, -, -⟩ := strtok_spec h₁
    obtain ⟨hne₂, hsep₂, -, -⟩ := strtok_spec h₂
    obtain ⟨hne₃, hsep₃, -, -⟩ := strtok_spec h₃
    exact ⟨⟨hne₁, hsep₁⟩, ⟨hne₂, hsep₂⟩, ⟨hne₃, hsep₃⟩⟩
  · intro h
    obtain ⟨ha, hb, hc⟩ := h
    refine ⟨b ++ comma :: (c ++ [cr, lf]), c ++ [cr, lf], [lf], ?_, ?_, ?_⟩
    · rw [← strtok_field ha (c := comma) rfl]
      simp
    · exact strtok_field hb rfl _
    · exact strtok_field hc rfl _

/-- Without a third field the line feed behind the text is the third token. -/
theorem threeTokens_two {a b : List UInt8} (ha : OneToken a) (hb : OneToken b) :
    ThreeTokens (a ++ comma :: b ++ [cr, lf]) a b [lf] := by
  refine ⟨b ++ [cr, lf], [lf], [], ?_, strtok_field hb rfl _, ?_⟩
  · rw [← strtok_field ha (c := comma) rfl]
    simp
  · decide

variable {respond : σ → List UInt8 → Option (σ × List UInt8)} {fd : Int} {s s' : σ}
  {name argument : List UInt8}

theorem setText_accepted (h : setText respond fd name argument s = (s', wifiEok)) :
    fd ≠ 0 ∧ ∃ answer, respond s (name ++ 61 :: argument ++ [cr]) = some (s', answer) := by
  have hcodes : wifiError < 0 ∧ wifiEempty < 0 ∧ ¬ wifiEok < 0 ∧ wifiError ≠ wifiEok := by decide
  by_cases hfd : fd = 0
  · simp only [setText, sendAT, if_pos hfd, if_pos hcodes.1, Prod.mk.injEq] at h
    exact absurd h.2 hcodes.2.2.2
  · refine ⟨hfd, ?_⟩
    simp only [setText, sendAT, if_neg hfd] at h
    split at h
    · simp only [if_pos hcodes.1, Prod.mk.injEq] at h
      exact absurd h.2 hcodes.2.2.2
    · simp only [if_pos hcodes.2.1, Prod.mk.injEq] at h
      exact absurd h.2 hcodes.2.2.2
    · next s₁ b answer hanswer =>
      simp only [if_neg hcodes.2.2.1, Prod.mk.injEq] at h
      rw [← h.1]
      exact ⟨b :: answer, hanswer⟩

/-- The query reads the fields from the answer that holds the argument just set. -/
theorem getFields_after (hkeeps : KeepsText respond name)
    (hset : setText respond fd name argument s = (s', wifiEok)) (x : Vector UInt8 k)
    (y : Vector UInt8 m) (z : Vector UInt8 n) :
    ∃ s'', getFields respond fd (name ++ [cr]) s' x y z =
      match readFields (reply name argument) x y z with
      | .error e => .error e
      | .ok (fields, ret) => .ok (s'', fields, ret) := by
  obtain ⟨hfd, answer, hanswer⟩ := setText_accepted hset
  obtain ⟨s'', hquery⟩ := hkeeps s argument s' answer hanswer
  have hsend : sendAT respond fd (name ++ [cr]) s' = (s'', wifiEok, reply name argument) := by
    cases hreply : reply name argument with
    | nil =>
      rw [reply, List.append_eq_nil_iff] at hreply
      cases hreply.2
    | cons b rxbuf =>
      rw [hreply] at hquery
      simp only [sendAT, if_neg hfd, hquery]
  refine ⟨s'', ?_⟩
  simp only [getFields, hsend]
  rfl

/-- The fields of the answer are read back as `a`, `b` and `c`. -/
theorem getFields_texts_iff (hkeeps : KeepsText respond name) (hname : OneToken name)
    (hset : setText respond fd name argument s = (s', wifiEok)) (hargument : ∀ b ∈ argument, b ≠ 0)
    (x : Vector UInt8 k) (y : Vector UInt8 m) (z : Vector UInt8 n) {a b c : List UInt8}
    (ha : a.length < k) (hb : b.length < m) (hc : c.length < n) :
    (∃ s'' x' y' z', getFields respond fd (name ++ [cr]) s' x y z =
        .ok (s'', (x', y', z'), wifiEok) ∧ text x' = a ∧ text y' = b ∧ text z' = c) ↔
      ThreeTokens (argument ++ [cr, lf]) a b c := by
  have hrest : ∀ b ∈ argument ++ [cr, lf], b ≠ 0 := by
    intro b hb
    rcases List.mem_append.mp hb with hb | hb
    · exact hargument b hb
    · simp only [List.mem_cons, List.not_mem_nil, or_false] at hb
      rcases hb with rfl | rfl <;> decide
  rw [← readFields_texts_iff (skipEcho_reply hname argument) hrest x y z ha hb hc]
  obtain ⟨s₁, hget⟩ := getFields_after hkeeps hset x y z
  rw [hget]
  constructor
  · intro h
    obtain ⟨s'', x', y', z', heq, htexts⟩ := h
    split at heq
    · cases heq
    · next fields ret hread =>
      cases heq
      exact ⟨x', y', z', hread, htexts⟩
  · intro h
    obtain ⟨x', y', z', hread, htexts⟩ := h
    exact ⟨s₁, x', y', z', by rw [hread], htexts⟩

theorem wifiMode_token : ∀ t ∈ wifiModes, OneToken t ∧ t.length < 6 := by decide

theorem channel_token : ∀ t ∈ channels, OneToken t ∧ t.length < 5 := by decide

theorem auth_token : ∀ t ∈ auths, OneToken t ∧ t.length < 7 := by decide

theorem encry_token : ∀ t ∈ encrys, OneToken t ∧ t.length < 8 := by decide

/-- The network settings, read into any `wap₀`, are those of `wap`. -/
def WapReadBack (respond : σ → List UInt8 → Option (σ × List UInt8)) (fd : Int) (s : σ)
    (wap₀ wap : WifiWap) : Prop :=
  ∃ s' wap', wifiGetWap respond fd s wap₀ = .ok (s', wap', wifiEok) ∧ wap'.Same wap

def WakeyReadBack (respond : σ → List UInt8 → Option (σ × List UInt8)) (fd : Int) (s : σ)
    (wakey₀ wakey : WifiWakey) : Prop :=
  ∃ s' wakey', wifiGetWakey respond fd s wakey₀ = .ok (s', wakey', wifiEok) ∧ wakey'.Same wakey

theorem setChecked_accepted {x y : List UInt8} {xs ys : List (List UInt8)}
    (h : setChecked respond fd s x xs y ys name argument = (s', wifiEok)) :
    x ∈ xs ∧ y ∈ ys ∧ setText respond fd name argument s = (s', wifiEok) := by
  have hcode : wifiError ≠ wifiEok := by decide
  unfold setChecked at h
  split at h
  · simp only [Prod.mk.injEq] at h
    exact absurd h.2 hcode
  next hx =>
  split at h
  · simp only [Prod.mk.injEq] at h
    exact absurd h.2 hcode
  next hy =>
  exact ⟨not_not.mp hx, not_not.mp hy, h⟩

theorem wapReadBack_iff_fields (wap₀ wap : WifiWap) :
    WapReadBack respond fd s wap₀ wap ↔
      ∃ s' x y z, getFields respond fd (wapName ++ [cr]) s wap₀.wifiMode wap₀.ssid wap₀.channel =
          .ok (s', (x, y, z), wifiEok) ∧
        text x = text wap.wifiMode ∧ text y = text wap.ssid ∧ text z = text wap.channel := by
  constructor
  · intro h
    obtain ⟨s', wap', hget, hsame⟩ := h
    unfold wifiGetWap at hget
    split at hget
    · cases hget
    · next s₁ x y z ret hfields =>
      cases hget
      exact ⟨s', x, y, z, hfields, hsame⟩
  · intro h
    obtain ⟨s', x, y, z, hfields, hsame⟩ := h
    exact ⟨s', ⟨x, y, z⟩, by rw [wifiGetWap, hfields], hsame⟩

theorem wakeyReadBack_iff_fields (wakey₀ wakey : WifiWakey) :
    WakeyReadBack respond fd s wakey₀ wakey ↔
      ∃ s' x y z, getFields respond fd (wakeyName ++ [cr]) s wakey₀.auth wakey₀.encry wakey₀.key =
          .ok (s', (x, y, z), wifiEok) ∧
        text x = text wakey.auth ∧ text y = text wakey.encry ∧ text z = text wakey.key := by
  constructor
  · intro h
    obtain ⟨s', wakey', hget, hsame⟩ := h
    unfold wifiGetWakey at hget
    split at hget
    · cases hget
    · next s₁ x y z ret hfields =>
      cases hget
      exact ⟨s', x, y, z, hfields, hsame⟩
  · intro h
    obtain ⟨s', x, y, z, hfields, hsame⟩ := h
    exact ⟨s', ⟨x, y, z⟩, by rw [wifiGetWakey, hfields], hsame⟩

theorem wapText_ne_zero (wap : WifiWap) : ∀ b ∈ wapText wap, b ≠ 0 := by
  intro b hb
  simp only [wapText, List.mem_append, List.mem_cons] at hb
  rcases hb with (hb | rfl | hb) | rfl | hb
  · exact ne_zero_of_mem_text hb
  · decide
  · exact ne_zero_of_mem_text hb
  · decide
  · exact ne_zero_of_mem_text hb

theorem wakeyText_ne_zero (wakey : WifiWakey) : ∀ b ∈ wakeyText wakey, b ≠ 0 := by
  intro b hb
  simp only [wakeyText, List.mem_append, List.mem_cons] at hb
  rcases hb with (hb | rfl | hb) | hb
  · exact ne_zero_of_mem_text hb
  · decide
  · exact ne_zero_of_mem_text hb
  · split at hb
    · rcases List.mem_cons.mp hb with rfl | hb
      · decide
      · exact ne_zero_of_mem_text hb
    · cases hb

/-- The network settings are read back exactly if the network name is one token. -/
theorem wapReadBack_iff (hkeeps : KeepsText respond wapName) {wap : WifiWap}
    (hset : wifiSetWap respond fd s wap = (s', wifiEok)) (hends : (text wap.ssid).length < 128)
    (wap₀ : WifiWap) :
    WapReadBack respond fd s' wap₀ wap ↔ OneToken (text wap.ssid) := by
  obtain ⟨hmode, hchannel, htext⟩ := setChecked_accepted hset
  obtain ⟨hmode, hmodeLength⟩ := wifiMode_token _ hmode
  obtain ⟨hchannel, hchannelLength⟩ := channel_token _ hchannel
  rw [wapReadBack_iff_fields, getFields_texts_iff hkeeps (by decide) htext (wapText_ne_zero wap)
    _ _ _ hmodeLength hends hchannelLength, wapText, threeTokens_iff]
  exact ⟨fun h => h.2.1, fun h => ⟨hmode, h, hchannel⟩⟩

/-- The settings of a network with a key are read back exactly if the key is one token. -/
theorem wakeyReadBack_iff (hkeeps : KeepsText respond wakeyName) {wakey : WifiWakey}
    (hset : wifiSetWakey respond fd s wakey = (s', wifiEok)) (hends : (text wakey.key).length < 64)
    (hclosed : text wakey.auth ≠ authOpen) (wakey₀ : WifiWakey) :
    WakeyReadBack respond fd s' wakey₀ wakey ↔ OneToken (text wakey.key) := by
  obtain ⟨hauth, hencry, htext⟩ := setChecked_accepted hset
  obtain ⟨hauth, hauthLength⟩ := auth_token _ hauth
  obtain ⟨hencry, hencryLength⟩ := encry_token _ hencry
  rw [wakeyReadBack_iff_fields, getFields_texts_iff hkeeps (by decide) htext
    (wakeyText_ne_zero wakey) _ _ _ hauthLength hencryLength hends, wakeyText, if_pos hclosed,
    threeTokens_iff]
  exact ⟨fun h => h.2.2, fun h => ⟨hauth, hencry, h⟩⟩

/-- An open network is read back with its modes and a line feed as the key. -/
theorem wakeyReadBack_open (hkeeps : KeepsText respond wakeyName) {wakey : WifiWakey}
    (hset : wifiSetWakey respond fd s wakey = (s', wifiEok))
    (hopen : text wakey.auth = authOpen) (wakey₀ : WifiWakey) :
    ∃ s'' wakey', wifiGetWakey respond fd s' wakey₀ = .ok (s'', wakey', wifiEok) ∧
      text wakey'.auth = text wakey.auth ∧ text wakey'.encry = text wakey.encry ∧
      text wakey'.key = [lf] := by
  obtain ⟨hauth, hencry, htext⟩ := setChecked_accepted hset
  obtain ⟨hauth, hauthLength⟩ := auth_token _ hauth
  obtain ⟨hencry, hencryLength⟩ := encry_token _ hencry
  have htokens : ThreeTokens (wakeyText wakey ++ [cr, lf]) (text wakey.auth) (text wakey.encry)
      [lf] := by
    rw [wakeyText, if_neg (not_not.mpr hopen), List.append_nil]
    exact threeTokens_two hauth hencry
  obtain ⟨s'', x, y, z, hfields, htexts⟩ := (getFields_texts_iff hkeeps (by decide) htext
    (wakeyText_ne_zero wakey) wakey₀.auth wakey₀.encry wakey₀.key hauthLength hencryLength
    (by decide)).mpr htokens
  exact ⟨s'', ⟨x, y, z⟩, by rw [wifiGetWakey, hfields], htexts⟩

theorem not_wakeyReadBack_open (hkeeps : KeepsText respond wakeyName) {wakey : WifiWakey}
    (hset : wifiSetWakey respond fd s wakey = (s', wifiEok))
    (hopen : text wakey.auth = authOpen) (hkey : text wakey.key ≠ [lf]) (wakey₀ : WifiWakey) :
    ¬ WakeyReadBack respond fd s' wakey₀ wakey := by
  intro h
  obtain ⟨s'', wakey', hget, -, -, hread⟩ := wakeyReadBack_open hkeeps hset hopen wakey₀
  obtain ⟨s₁, wakey₁, hget₁, -, -, hsame⟩ := h
  rw [hget] at hget₁
  cases hget₁
  exact hkey (hsame.symm.trans hread)

/-- Accepted settings are read back, provided that the free text is one token. For an open network
no key is sent and the line feed behind the answer is read in its place. -/
theorem settings_read_back (respond : σ → List UInt8 → Option (σ × List UInt8))
    (hwap : KeepsText respond wapName) (hwakey : KeepsText respond wakeyName) (fd : Int) :
    (∀ s s' wap wap₀, (text wap.ssid).length < 128 →
      wifiSetWap respond fd s wap = (s', wifiEok) → OneToken (text wap.ssid) →
      WapReadBack respond fd s' wap₀ wap) ∧
    (∀ s s' wakey wakey₀, (text wakey.key).length < 64 →
      wifiSetWakey respond fd s wakey = (s', wifiEok) → text wakey.auth ≠ authOpen →
      OneToken (text wakey.key) → WakeyReadBack respond fd s' wakey₀ wakey) ∧
    ∀ s s' wakey wakey₀, wifiSetWakey respond fd s wakey = (s', wifiEok) →
      text wakey.auth = authOpen →
      ∃ s'' wakey', wifiGetWakey respond fd s' wakey₀ = .ok (s'', wakey', wifiEok) ∧
        text wakey'.auth = text wakey.auth ∧ text wakey'.encry = text wakey.encry ∧
        text wakey'.key = [lf] := by
  refine ⟨?_, ?_, ?_⟩
  · intro s s' wap wap₀ hends hset hssid
    exact (wapReadBack_iff hwap hset hends wap₀).mpr hssid
  · intro s s' wakey wakey₀ hends hset hclosed hkey
    exact (wakeyReadBack_iff hwakey hset hends hclosed wakey₀).mpr hkey
  · intro s s' wakey wakey₀ hset hopen
    exact wakeyReadBack_open hwakey hset hopen wakey₀

/-- A module that keeps the argument of every setting under the name of the command. -/
def storingModule (s : List UInt8 → List UInt8) (cmd : List UInt8) :
    Option ((List UInt8 → List UInt8) × List UInt8) :=
  match cmd.dropWhile (· ≠ 61) with
  | [] => some (s, reply cmd.dropLast (s cmd.dropLast))
  | _ :: argument =>
      some (Function.update s (cmd.takeWhile (· ≠ 61)) argument.dropLast, ascii ['+', 'o', 'k'])

theorem storingModule_keeps {name : List UInt8} (hname : 61 ∉ name) :
    KeepsText storingModule name := by
  intro s argument s' answer h
  have hall : ∀ b ∈ name, decide (b ≠ 61) = true := by
    intro b hb
    rw [decide_eq_true_eq]
    intro heq
    exact hname (heq ▸ hb)
  have hset : storingModule s (name ++ 61 :: argument ++ [cr]) =
      some (Function.update s name argument, ascii ['+', 'o', 'k']) := by
    rw [storingModule, List.append_assoc, List.dropWhile_append_of_pos hall,
      List.takeWhile_append_of_pos hall]
    simp
  rw [hset] at h
  cases h
  have hquery : (name ++ [cr]).dropWhile (· ≠ 61) = [] := by
    rw [List.dropWhile_append_of_pos hall]
    decide
  refine ⟨Function.update s name argument, ?_⟩
  rw [storingModule, hquery]
  simp

/-- A field that holds the string. -/
def field (n : Nat) (s : List Char) : Vector UInt8 n :=
  Vector.ofFn fun i => (ascii s).getD i.val 0

def labWap : WifiWap :=
  ⟨field 6 ['1', '1', 'B', 'G', 'N'], field 128 ['l', 'a', 'b'], field 5 ['A', 'U', 'T', 'O']⟩

theorem settings_read_back_lab :
    ∃ s', wifiSetWap storingModule 3 (fun _ => []) labWap = (s', wifiEok) ∧
      WapReadBack storingModule 3 s' ⟨field 6 [], field 128 [], field 5 []⟩ labWap := by
  have hset : (wifiSetWap storingModule 3 (fun _ => []) labWap).2 = wifiEok := by decide
  refine ⟨(wifiSetWap storingModule 3 (fun _ => []) labWap).1, Prod.ext rfl hset, ?_⟩
  exact (settings_read_back storingModule (storingModule_keeps (by decide))
    (storingModule_keeps (by decide)) 3).1 _ _ labWap _ (by decide) (Prod.ext rfl hset) (by decide)

/-- An open network whose key field is not empty. -/
def openWakey : WifiWakey :=
  ⟨field 7 ['O', 'P', 'E', 'N'], field 8 ['N', 'O', 'N', 'E'], field 64 ['k', 'e', 'y']⟩

theorem open_key_not_read_back :
    KeepsText storingModule wakeyName ∧
      ∃ s', wifiSetWakey storingModule 3 (fun _ => []) openWakey = (s', wifiEok) ∧
        ¬ WakeyReadBack storingModule 3 s' ⟨field 7 [], field 8 [], field 64 []⟩ openWakey := by
  have hkeeps : KeepsText storingModule wakeyName := storingModule_keeps (by decide)
  have hset : (wifiSetWakey storingModule 3 (fun _ => []) openWakey).2 = wifiEok := by decide
  refine ⟨hkeeps, (wifiSetWakey storingModule 3 (fun _ => []) openWakey).1, Prod.ext rfl hset, ?_⟩
  exact not_wakeyReadBack_open hkeeps (Prod.ext rfl hset) (by decide) (by decide) _

end BackupSoftware.Wifi
