import BackupSoftware.Gps.Parsers

/-!
# Which fields of a ZDA line the members are taken from

`strtok` takes a run of commas for one. An empty field is skipped, and all later ones
move up by one place. A time field of fewer than seven characters is left on the other
side: the minutes, the seconds or the milliseconds are read behind it.
-/

namespace BackupSoftware.Gps

open BackupSoftware.Library.Strings

/-- The fields, each with the comma in front of it. -/
def joined (fields : List (List UInt8)) : List UInt8 := fields.flatMap fun f => comma :: f

/-- A line with a right sum: a name and the fields that its commas separate. The last field has the
checksum at its end. -/
structure ZdaLine where
  name : List UInt8
  fields : List (List UInt8)
  starts : name.head? = some dollar
  free : ∀ f ∈ name :: fields, ∀ b ∈ f, b ≠ 0 ∧ b ≠ comma
  accepted : checksumStep (name ++ joined fields) = some gpsEok

def ZdaLine.text (l : ZdaLine) : List UInt8 := l.name ++ joined l.fields

section Tokens

variable {σ : Type} {fields : List (List UInt8)}

theorem joined_cons (f : List UInt8) (fields : List (List UInt8)) :
    joined (f :: fields) = comma :: (f ++ joined fields) := rfl

theorem joined_ne_zero (hfree : ∀ f ∈ fields, ∀ b ∈ f, b ≠ 0 ∧ b ≠ comma) :
    ∀ b ∈ joined fields, b ≠ 0 := by
  intro b hb
  obtain ⟨f, hf, hb⟩ := List.mem_flatMap.mp hb
  rcases List.mem_cons.mp hb with rfl | hb
  · decide
  · exact (hfree f hf b hb).1

/-- The token at a field is the field. -/
theorem token_field {f : List UInt8} (hf : ∀ b ∈ f, b ≠ 0 ∧ b ≠ comma)
    (fields : List (List UInt8)) : token (f ++ joined fields) = f := by
  rw [token, List.takeWhile_append_of_pos fun b hb => decide_eq_true (hf b hb).2]
  cases fields with
  | nil => exact List.append_nil f
  | cons f' fields =>
    rw [joined_cons, List.takeWhile_cons_of_neg (by simp), List.append_nil]

theorem strtok_field {f : List UInt8} (hne : f ≠ []) (hf : ∀ b ∈ f, b ≠ 0 ∧ b ≠ comma)
    (fields : List (List UInt8)) :
    strtok (· = comma) (f ++ joined fields) = some (f, (joined fields).drop 1) := by
  refine strtok_token hne (fun b hb => decide_eq_false (hf b hb).2) ?_
  intro c s hs
  cases fields with
  | nil => cases hs
  | cons f' fields =>
    cases hs
    rfl

/-- A comma in front of the string is skipped. -/
theorem parseChain_comma (links : List (List UInt8 → σ → σ)) (s : List UInt8) (st : σ) :
    parseChain links (comma :: s) st = parseChain links s st := by
  cases links with
  | nil => rfl
  | cons link links =>
    rw [parseChain, parseChain, strtok_of_delimiter rfl, List.dropWhile_cons_of_pos rfl]

theorem parseChain_drop (links : List (List UInt8 → σ → σ)) (fields : List (List UInt8)) (st : σ) :
    parseChain links ((joined fields).drop 1) st = parseChain links (joined fields) st := by
  cases fields with
  | nil => rfl
  | cons f fields => exact (parseChain_comma links (f ++ joined fields) st).symm

theorem parseChain_field {f : List UInt8} (hne : f ≠ []) (hf : ∀ b ∈ f, b ≠ 0 ∧ b ≠ comma)
    (link : List UInt8 → σ → σ) (links : List (List UInt8 → σ → σ))
    (fields : List (List UInt8)) (st : σ) :
    parseChain (link :: links) (f ++ joined fields) st =
      parseChain links (joined fields) (link (f ++ joined fields) st) := by
  have hstart : (f ++ joined fields).dropWhile (· = comma) = f ++ joined fields := by
    cases f with
    | nil => exact absurd rfl hne
    | cons c f =>
      exact List.dropWhile_cons_of_neg (by simpa using (hf c List.mem_cons_self).2)
  rw [parseChain, strtok_field hne hf, hstart]
  exact parseChain_drop links fields _

/-- The next link is given the next field that is not empty. -/
theorem parseChain_joined (hfree : ∀ f ∈ fields, ∀ b ∈ f, b ≠ 0 ∧ b ≠ comma)
    (link : List UInt8 → σ → σ) (links : List (List UInt8 → σ → σ)) (st : σ) :
    parseChain (link :: links) (joined fields) st =
      match fields.dropWhile List.isEmpty with
      | [] => (gpsError, st)
      | f :: fs => parseChain links (joined fs) (link (f ++ joined fs) st) := by
  induction fields with
  | nil => rfl
  | cons f fields ih =>
    rw [List.forall_mem_cons] at hfree
    rw [joined_cons, parseChain_comma]
    by_cases hne : f = []
    · rw [hne, List.nil_append, ih hfree.2]
      rfl
    · rw [parseChain_field hne hfree.1]
      rw [List.dropWhile_cons_of_neg (by simpa using hne)]

/-- The fields that are not empty are the tokens. -/
theorem dropWhile_of_filter_cons {t : List UInt8} {ts : List (List UInt8)}
    (h : (fields.filter fun f => !f.isEmpty) = t :: ts) :
    ∃ fs, fields.dropWhile List.isEmpty = t :: fs ∧ (fs.filter fun f => !f.isEmpty) = ts ∧
      t ≠ [] ∧ (∀ f ∈ t :: fs, f ∈ fields) := by
  induction fields with
  | nil => cases h
  | cons f fields ih =>
    by_cases hne : f = []
    · rw [List.filter_cons_of_neg (by simp [hne])] at h
      obtain ⟨fs, hdrop, hfilter, ht, hmem⟩ := ih h
      refine ⟨fs, ?_, hfilter, ht, fun g hg => List.mem_cons_of_mem _ (hmem g hg)⟩
      rw [List.dropWhile_cons_of_pos (by simp [hne]), hdrop]
    · rw [List.filter_cons_of_pos (by simp [hne])] at h
      cases h
      exact ⟨fields, List.dropWhile_cons_of_neg (by simpa using hne), rfl, hne, fun g hg => hg⟩

theorem dropWhile_of_filter_nil (h : (fields.filter fun f => !f.isEmpty) = []) :
    fields.dropWhile List.isEmpty = [] := by
  rw [List.filter_eq_nil_iff] at h
  rw [List.dropWhile_eq_nil_iff]
  intro f hf
  simpa using h f hf

/-- A chain longer than the number of tokens fails. -/
theorem parseChain_short (hfree : ∀ f ∈ fields, ∀ b ∈ f, b ≠ 0 ∧ b ≠ comma)
    {links : List (List UInt8 → σ → σ)}
    (hshort : (fields.filter fun f => !f.isEmpty).length < links.length) (st : σ) :
    (parseChain links (joined fields) st).1 = gpsError := by
  induction links generalizing fields st with
  | nil => cases hshort
  | cons link links ih =>
    rw [parseChain_joined hfree]
    cases hfilter : fields.filter fun f => !f.isEmpty with
    | nil => rw [dropWhile_of_filter_nil hfilter]
    | cons t ts =>
      obtain ⟨fs, hdrop, hrest, -, hmem⟩ := dropWhile_of_filter_cons hfilter
      rw [hdrop]
      refine ih (fun f hf => hfree f (hmem f (List.mem_cons_of_mem _ hf))) ?_ _
      rw [hfilter] at hshort
      rw [hrest]
      simpa using hshort

end Tokens

theorem getD_ne_zero {p : List UInt8} (hp : ∀ b ∈ p, b ≠ 0) {k : Nat} (hk : k < p.length) :
    p.getD k 0 ≠ 0 := by
  rw [List.getD_eq_getElem?_getD, List.getElem?_eq_getElem hk]
  exact hp _ (List.getElem_mem hk)

theorem byteAt_inside (behind : Nat → UInt8) {p : List UInt8} {k : Nat}
    (hk : k ≠ (token p).length) (hlt : k < p.length) : byteAt behind p k = p.getD k 0 := by
  rw [byteAt, if_neg hk, if_pos hlt]

theorem byteAt_token (behind : Nat → UInt8) {f : List UInt8} {fields : List (List UInt8)}
    (hf : ∀ b ∈ f, b ≠ 0 ∧ b ≠ comma) {k : Nat} (hk : k < f.length) :
    byteAt behind (f ++ joined fields) k = f[k] := by
  rw [byteAt_inside behind (by rw [token_field hf]; omega) (by rw [List.length_append]; omega),
    List.getD_eq_getElem?_getD, List.getElem?_append_left hk, List.getElem?_eq_getElem hk]
  rfl

theorem byteAt_end (behind : Nat → UInt8) {f : List UInt8} {fields : List (List UInt8)}
    (hf : ∀ b ∈ f, b ≠ 0 ∧ b ≠ comma) : byteAt behind (f ++ joined fields) f.length = 0 := by
  rw [byteAt, token_field hf, if_pos rfl]

/-- Up to its end two characters are those of the token. -/
theorem twoChars_token (behind : Nat → UInt8) {f : List UInt8} {fields : List (List UInt8)}
    (hf : ∀ b ∈ f, b ≠ 0 ∧ b ≠ comma) {k : Nat} (hk : k ≤ f.length) :
    twoChars behind (f ++ joined fields) k = (f.drop k).take 2 := by
  unfold twoChars
  rcases Nat.lt_or_eq_of_le hk with hlt | rfl
  · rw [byteAt_token behind hf hlt,
      List.takeWhile_cons_of_pos (by simpa using (hf _ (List.getElem_mem hlt)).1),
      List.drop_eq_getElem_cons hlt, List.take_succ_cons]
    congr 1
    rcases Nat.lt_or_eq_of_le (Nat.succ_le_of_lt hlt) with hlt' | hend
    · rw [byteAt_token behind hf hlt',
        List.takeWhile_cons_of_pos (by simpa using (hf _ (List.getElem_mem hlt')).1),
        List.drop_eq_getElem_cons hlt', List.take_succ_cons]
      rfl
    · have hzero : byteAt behind (f ++ joined fields) f.length = 0 := byteAt_end behind hf
      rw [← hend] at hzero
      rw [hzero, List.takeWhile_cons_of_neg (by simp), List.drop_of_length_le (by omega)]
      rfl
  · rw [byteAt_end behind hf, List.takeWhile_cons_of_neg (by simp),
      List.drop_of_length_le (Nat.le_refl _)]
    rfl

/-- Past the end of the token there is a character of what follows. -/
theorem twoChars_past (behind : Nat → UInt8) {p : List UInt8} (hp : ∀ b ∈ p, b ≠ 0) {k : Nat}
    (hk : k ≠ (token p).length) (hlt : k < p.length) : twoChars behind p k ≠ [] := by
  rw [twoChars, byteAt_inside behind hk hlt,
    List.takeWhile_cons_of_pos (by simpa using getD_ne_zero hp hlt)]
  exact List.cons_ne_nil _ _

/-- For each member the string that it is converted from. -/
abbrev ZdaStrings := Zda (List UInt8) (List UInt8)

/-- The strings of a call: the parser with conversions that keep the string. -/
def zdaStrings (behind : Nat → UInt8) (line : List UInt8) : Option (Int × ZdaStrings) :=
  parseLine (zdaLinks behind id id) (some line) ⟨[], [], [], [], [], [], []⟩

def ZdaStrings.converted (src : ZdaStrings) : GpsZda :=
  ⟨atoi src.msec, atoi src.sec, atoi src.min, atoi src.hour, atoiShort src.day, atoiShort src.mon,
    atoiShort src.year⟩

/-- Hour, minute, second and millisecond are taken from the first field, day, month and year from
the next three. -/
def OwnFields (fields : List (List UInt8)) (src : ZdaStrings) : Prop :=
  ∃ f₁ f₂ f₃ f₄ rest, fields = f₁ :: f₂ :: f₃ :: f₄ :: rest ∧
    src.hour = f₁.take 2 ∧ src.min = (f₁.drop 2).take 2 ∧ src.sec = (f₁.drop 4).take 2 ∧
    src.msec = (f₁.drop 7).take 2 ∧ src.day = f₂ ∧ src.mon = f₃ ∧ src.year = f₄

/-- `gps_get_zda` returns GPS_ERROR, or it sets the members from their own fields. -/
def TakesOwnFields (behind : Nat → UInt8) (l : ZdaLine) (zda : GpsZda) : Prop :=
  ∃ ret zda' src, gpsGetZda behind (some l.text) zda = some (ret, zda') ∧
    zdaStrings behind l.text = some (ret, src) ∧
    (ret = gpsError ∨ ret = gpsEok ∧ zda' = src.converted ∧ OwnFields l.fields src)

section Members

variable {α β : Type} (behind : Nat → UInt8) (l : ZdaLine)

theorem ZdaLine.fields_free : ∀ f ∈ l.fields, ∀ b ∈ f, b ≠ 0 ∧ b ≠ comma :=
  fun f hf => l.free f (List.mem_cons_of_mem _ hf)

/-- The name is the first token. -/
theorem parseLine_name {σ : Type} (link : List UInt8 → σ → σ) (links : List (List UInt8 → σ → σ))
    (st : σ) : parseLine (link :: links) (some l.text) st =
      some (parseChain links (joined l.fields) (link l.text st)) := by
  have hname : l.name ≠ [] := by
    intro h
    have hstarts := l.starts
    rw [h] at hstarts
    cases hstarts
  have hsum : checksumStep l.text = some gpsEok := l.accepted
  rw [parseLine, hsum]
  exact congrArg some (parseChain_field hname (l.free _ List.mem_cons_self) link links l.fields st)

/-- With too few tokens the call fails. -/
theorem zda_short (hshort : (l.fields.filter fun f => !f.isEmpty).length < 4)
    (toInt : List UInt8 → α) (toShort : List UInt8 → β) (zda : Zda α β) :
    ∃ zda', parseLine (zdaLinks behind toInt toShort) (some l.text) zda =
      some (gpsError, zda') := by
  rw [zdaLinks, parseLine_name]
  refine ⟨_, congrArg some (Prod.ext ?_ rfl)⟩
  refine parseChain_short l.fields_free ?_ _
  exact hshort

/-- With four tokens behind the name five links run to their end. -/
theorem parseLine_tokens {σ : Type} {t₁ t₂ t₃ t₄ : List UInt8} {r₁ r₂ r₃ r₄ : List (List UInt8)}
    (h₁ : l.fields.dropWhile List.isEmpty = t₁ :: r₁) (h₂ : r₁.dropWhile List.isEmpty = t₂ :: r₂)
    (h₃ : r₂.dropWhile List.isEmpty = t₃ :: r₃) (h₄ : r₃.dropWhile List.isEmpty = t₄ :: r₄)
    (link₀ link₁ link₂ link₃ link₄ : List UInt8 → σ → σ) (st : σ) :
    (∀ t ∈ [t₁, t₂, t₃, t₄], ∀ b ∈ t, b ≠ 0 ∧ b ≠ comma) ∧
    parseLine [link₀, link₁, link₂, link₃, link₄] (some l.text) st = some (gpsEok,
      link₄ (t₄ ++ joined r₄) (link₃ (t₃ ++ joined r₃) (link₂ (t₂ ++ joined r₂)
        (link₁ (t₁ ++ joined r₁) (link₀ l.text st))))) := by
  have hfree : ∀ {fs gs : List (List UInt8)} {t : List UInt8},
      (∀ f ∈ fs, ∀ b ∈ f, b ≠ 0 ∧ b ≠ comma) → fs.dropWhile List.isEmpty = t :: gs →
        ∀ f ∈ t :: gs, ∀ b ∈ f, b ≠ 0 ∧ b ≠ comma := by
    intro fs gs t hfs hdrop f hf
    rw [← hdrop] at hf
    exact hfs f ((List.dropWhile_suffix _).subset hf)
  have hfree₁ := List.forall_mem_cons.mp (hfree l.fields_free h₁)
  have hfree₂ := List.forall_mem_cons.mp (hfree hfree₁.2 h₂)
  have hfree₃ := List.forall_mem_cons.mp (hfree hfree₂.2 h₃)
  have hfree₄ := List.forall_mem_cons.mp (hfree hfree₃.2 h₄)
  constructor
  · simp only [List.forall_mem_cons]
    exact ⟨hfree₁.1, hfree₂.1, hfree₃.1, hfree₄.1, fun _ h => by cases h⟩
  · rw [parseLine_name, parseChain_joined l.fields_free, h₁]
    simp only
    rw [parseChain_joined hfree₁.2, h₂]
    simp only
    rw [parseChain_joined hfree₂.2, h₃]
    simp only
    rw [parseChain_joined hfree₃.2, h₄]
    rfl

/-- The members are then taken from the tokens. -/
theorem zda_tokens {t₁ t₂ t₃ t₄ : List UInt8} {r₁ r₂ r₃ r₄ : List (List UInt8)}
    (h₁ : l.fields.dropWhile List.isEmpty = t₁ :: r₁) (h₂ : r₁.dropWhile List.isEmpty = t₂ :: r₂)
    (h₃ : r₂.dropWhile List.isEmpty = t₃ :: r₃) (h₄ : r₃.dropWhile List.isEmpty = t₄ :: r₄)
    (toInt : List UInt8 → α) (toShort : List UInt8 → β) (zda : Zda α β) :
    parseLine (zdaLinks behind toInt toShort) (some l.text) zda = some (gpsEok,
      ⟨toInt (twoChars behind (t₁ ++ joined r₁) 7), toInt (twoChars behind (t₁ ++ joined r₁) 4),
        toInt (twoChars behind (t₁ ++ joined r₁) 2), toInt (twoChars behind (t₁ ++ joined r₁) 0),
        toShort t₂, toShort t₃, toShort t₄⟩) := by
  obtain ⟨hfree, hparse⟩ := parseLine_tokens l h₁ h₂ h₃ h₄ _ _ _ _ _ zda
  simp only [List.forall_mem_cons] at hfree
  rw [zdaLinks, hparse]
  simp only [token_field hfree.2.1, token_field hfree.2.2.1, token_field hfree.2.2.2.1]

end Members

/-- Fewer than four fields hold anything, or the first four do, the first at least seven
characters. -/
def FieldsInPlace (fields : List (List UInt8)) : Prop :=
  (fields.filter fun f => !f.isEmpty).length < 4 ∨
    ∃ f₁ f₂ f₃ f₄ rest, fields = f₁ :: f₂ :: f₃ :: f₄ :: rest ∧
      7 ≤ f₁.length ∧ f₂ ≠ [] ∧ f₃ ≠ [] ∧ f₄ ≠ []

theorem exists_four_of_le {τ : Type} {ts : List τ} (h : 4 ≤ ts.length) :
    ∃ t₁ t₂ t₃ t₄ rest, ts = t₁ :: t₂ :: t₃ :: t₄ :: rest := by
  match ts, h with
  | t₁ :: t₂ :: t₃ :: t₄ :: rest, _ => exact ⟨t₁, t₂, t₃, t₄, rest, rfl⟩

/-- An empty field is not where a token starts. -/
theorem dropWhile_field {f : List UInt8} (hf : f ≠ []) (fs : List (List UInt8)) :
    (f :: fs).dropWhile List.isEmpty = f :: fs :=
  List.dropWhile_cons_of_neg (by simpa using hf)

theorem field_eq_of_dropWhile {f t : List UInt8} {fs r : List (List UInt8)} (hf : f ≠ [])
    (h : (f :: fs).dropWhile List.isEmpty = t :: r) : f = t ∧ fs = r := by
  rw [dropWhile_field hf] at h
  exact List.cons.inj h

/-- A time of one to six characters, with more fields behind it: the minutes, the seconds or the
milliseconds are taken from what follows. -/
theorem short_time_read_past (behind : Nat → UInt8) {f : List UInt8}
    {fields : List (List UInt8)} (hfree : ∀ g ∈ f :: fields, ∀ b ∈ g, b ≠ 0 ∧ b ≠ comma)
    (hne : f ≠ []) (hshort : f.length < 7) (hlong : 4 ≤ (joined fields).length)
    (hmin : twoChars behind (f ++ joined fields) 2 = (f.drop 2).take 2)
    (hsec : twoChars behind (f ++ joined fields) 4 = (f.drop 4).take 2)
    (hmsec : twoChars behind (f ++ joined fields) 7 = (f.drop 7).take 2) : False := by
  rw [List.forall_mem_cons] at hfree
  have hpos := List.length_pos_of_ne_nil hne
  have hp : ∀ b ∈ f ++ joined fields, b ≠ 0 := by
    intro b hb
    rcases List.mem_append.mp hb with hb | hb
    · exact (hfree.1 b hb).1
    · exact joined_ne_zero hfree.2 b hb
  have hpast (k : Nat) (hk : f.length < k) (hlt : k < f.length + (joined fields).length) :
      twoChars behind (f ++ joined fields) k ≠ (f.drop k).take 2 := by
    rw [List.drop_of_length_le (Nat.le_of_lt hk)]
    refine twoChars_past behind hp ?_ (by rw [List.length_append]; exact hlt)
    rw [token_field hfree.1]
    omega
  by_cases h1 : f.length = 1
  · exact hpast 2 (by omega) (by omega) hmin
  by_cases h4 : f.length < 4
  · exact hpast 4 h4 (by omega) hsec
  · exact hpast 7 hshort (by omega) hmsec

/-- The members are taken from their own fields, or the call fails, exactly if the line has fewer
than four fields that are not empty, or the first four are not and the time has seven characters. -/
theorem zda_own_fields_iff (behind : Nat → UInt8) (l : ZdaLine) (zda : GpsZda) :
    TakesOwnFields behind l zda ↔ FieldsInPlace l.fields := by
  by_cases hshort : (l.fields.filter fun f => !f.isEmpty).length < 4
  · obtain ⟨zda', hzda⟩ := zda_short behind l hshort atoi atoiShort zda
    obtain ⟨src, hsrc⟩ := zda_short behind l hshort id id ⟨[], [], [], [], [], [], []⟩
    exact iff_of_true ⟨gpsError, zda', src, hzda, hsrc, Or.inl rfl⟩ (Or.inl hshort)
  obtain ⟨t₁, t₂, t₃, t₄, ts, hfilter⟩ := exists_four_of_le (Nat.not_lt.mp hshort)
  obtain ⟨r₁, h₁, hfilter₁, hne₁, -⟩ := dropWhile_of_filter_cons hfilter
  obtain ⟨r₂, h₂, hfilter₂, hne₂, -⟩ := dropWhile_of_filter_cons hfilter₁
  obtain ⟨r₃, h₃, hfilter₃, hne₃, -⟩ := dropWhile_of_filter_cons hfilter₂
  obtain ⟨r₄, h₄, -, hne₄, -⟩ := dropWhile_of_filter_cons hfilter₃
  have hzda := zda_tokens behind l h₁ h₂ h₃ h₄ atoi atoiShort zda
  have hsrc := zda_tokens behind l h₁ h₂ h₃ h₄ id id ⟨[], [], [], [], [], [], []⟩
  have hfree₁ : ∀ b ∈ t₁, b ≠ 0 ∧ b ≠ comma := by
    refine l.fields_free t₁ ((List.dropWhile_suffix List.isEmpty).subset ?_)
    rw [h₁]
    exact List.mem_cons_self
  constructor
  · intro h
    obtain ⟨ret, zda', src, -, hsrc', hout⟩ := h
    rw [zdaStrings, hsrc] at hsrc'
    cases hsrc'
    rcases hout with hout | ⟨-, -, f₁, f₂, f₃, f₄, rest, hfields, hown⟩
    · cases hout
    obtain ⟨hhour, hmin, hsec, hmsec, hday, hmon, hyear⟩ := hown
    simp only [id] at hhour hmin hsec hmsec hday hmon hyear
    have hf₁ : f₁ ≠ [] := by
      intro hnil
      rw [hnil, twoChars_token behind hfree₁ (Nat.zero_le _)] at hhour
      exact hne₁ (by simpa using hhour)
    rw [hfields] at h₁
    obtain ⟨rfl, rfl⟩ := field_eq_of_dropWhile hf₁ h₁
    refine Or.inr ⟨f₁, f₂, f₃, f₄, rest, hfields, ?_, hday ▸ hne₂, hmon ▸ hne₃, hyear ▸ hne₄⟩
    by_contra htime
    refine short_time_read_past behind ?_ hf₁ (Nat.not_le.mp htime) ?_ hmin hsec hmsec
    · rw [← hfields]
      exact l.fields_free
    · have hday_pos : 0 < f₂.length := List.length_pos_of_ne_nil (hday ▸ hne₂)
      simp only [joined_cons, List.length_cons, List.length_append]
      omega
  · intro h
    rcases h with h | ⟨f₁, f₂, f₃, f₄, rest, hfields, htime, hf₂, hf₃, hf₄⟩
    · exact absurd h hshort
    have hf₁ : f₁ ≠ [] := List.ne_nil_of_length_pos (by omega)
    rw [hfields] at h₁
    obtain ⟨rfl, rfl⟩ := field_eq_of_dropWhile hf₁ h₁
    obtain ⟨rfl, rfl⟩ := field_eq_of_dropWhile hf₂ h₂
    obtain ⟨rfl, rfl⟩ := field_eq_of_dropWhile hf₃ h₃
    obtain ⟨rfl, rfl⟩ := field_eq_of_dropWhile hf₄ h₄
    refine ⟨gpsEok, _, _, hzda, hsrc, Or.inr ⟨rfl, rfl, f₁, f₂, f₃, f₄, rest, hfields, ?_⟩⟩
    refine ⟨?_, ?_, ?_, ?_, rfl, rfl, rfl⟩
    · exact twoChars_token behind hfree₁ (Nat.zero_le _)
    · exact twoChars_token behind hfree₁ (by omega)
    · exact twoChars_token behind hfree₁ (by omega)
    · exact twoChars_token behind hfree₁ (by omega)

/-- The line with the name `$GPZDA` and these fields. -/
def gpzda (fields : List (List UInt8))
    (free : ∀ f ∈ [36, 71, 80, 90, 68, 65] :: fields, ∀ b ∈ f, b ≠ 0 ∧ b ≠ comma)
    (accepted : checksumStep ([36, 71, 80, 90, 68, 65] ++ joined fields) = some gpsEok) : ZdaLine :=
  ⟨[36, 71, 80, 90, 68, 65], fields, rfl, free, accepted⟩

/-- The line `$GPZDA,,09,08,2013,00,00*49` of a receiver that has no time yet. -/
def noTimeLine : ZdaLine :=
  gpzda [[], [48, 57], [48, 56], [50, 48, 49, 51], [48, 48], [48, 48, 42, 52, 57]]
    (by decide +kernel) (by decide)

/-- The call succeeds; the hour is the day, the day the month, the month the year and the year the
time zone. -/
theorem zda_without_time_shifted :
    gpsGetZda (fun _ => 0) (some noTimeLine.text) ⟨0, 0, 0, 0, 0, 0, 0⟩ =
        some (gpsEok, ⟨1, 8, 0, 9, 8, 2013, 0⟩) ∧
      ¬ TakesOwnFields (fun _ => 0) noTimeLine ⟨0, 0, 0, 0, 0, 0, 0⟩ := by
  refine ⟨by decide, ?_⟩
  intro h
  obtain ⟨ret, zda', src, -, hsrc, hout⟩ := h
  have hstrings : zdaStrings (fun _ => 0) noTimeLine.text = some (gpsEok,
      ⟨[48, 49], [56, 44], [], [48, 57], [48, 56], [50, 48, 49, 51], [48, 48]⟩) := by
    decide
  rw [hstrings] at hsrc
  cases hsrc
  rcases hout with hout | ⟨-, -, f₁, f₂, f₃, f₄, rest, hfields, hhour, -⟩
  · cases hout
  · cases hfields
    cases hhour

end BackupSoftware.Gps
