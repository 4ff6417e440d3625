import BackupSoftware.Gps.Parsers

/-!
# What a parser leaves behind when it fails

The parsers store each member as soon as they have its token, and return at the first
token that is missing. Members of earlier tokens are overwritten by then; those of the
missing token and of all later ones are as they were.
-/

namespace BackupSoftware.Gps

open BackupSoftware.Library.Strings

/-- The string has at least `n` tokens. -/
def hasTokens : Nat → List UInt8 → Bool
  | 0, _ => true
  | n + 1, s =>
      match strtok (· = comma) s with
      | none => false
      | some (_, rest) => hasTokens n rest

/-- The parser gets to the `n`-th token: there is a line, its sum is right and it has the token. -/
def Reaches (rxbuf : Option (List UInt8)) (n : Nat) : Prop :=
  ∃ line, rxbuf = some line ∧ checksumStep line = some gpsEok ∧ hasTokens n line = true

section Chain

variable {σ τ : Type}

/-- Without the token number `n + 1` only the first `n` links run. -/
theorem parseChain_keeps (proj : σ → τ) {links : List (List UInt8 → σ → σ)} {n : Nat}
    (hlinks : ∀ link ∈ links.take n, ∀ p st, proj (link p st) = proj st) {s : List UInt8}
    (htokens : hasTokens (n + 1) s = false) (st : σ) :
    proj (parseChain links s st).2 = proj st := by
  induction links generalizing n s st with
  | nil => rfl
  | cons link links ih =>
    rw [hasTokens] at htokens
    rw [parseChain]
    split
    · rfl
    · next tok rest htok =>
      rw [htok] at htokens
      cases n with
      | zero => cases htokens
      | succ n =>
        rw [List.take_succ_cons, List.forall_mem_cons] at hlinks
        exact (ih hlinks.2 htokens _).trans (hlinks.1 _ _)

/-- The chain fails exactly if the string has fewer tokens than the chain has links. -/
theorem parseChain_error_iff (links : List (List UInt8 → σ → σ)) (s : List UInt8) (st : σ) :
    (parseChain links s st).1 = gpsError ↔ hasTokens links.length s = false := by
  induction links generalizing s st with
  | nil => simp [parseChain, hasTokens, gpsEok, gpsError]
  | cons link links ih =>
    rw [parseChain, List.length_cons, hasTokens]
    cases strtok (· = comma) s with
    | none => simp
    | some r => exact ih _ _

theorem checksumStep_cases {line : List UInt8} {ret : Int} (h : checksumStep line = some ret) :
    ret = gpsEok ∨ ret = gpsError := by
  cases line with
  | nil => cases h
  | cons front crcbuf =>
    unfold checksumStep gpsNmeaCrc at h
    by_cases hlen : crcbuf.length < 1
    · simp only [if_pos hlen] at h
      cases h
    · simp only [if_neg hlen] at h
      rw [← Option.some.injEq, ← Option.some.injEq ret, ← h, or_comm]
      exact ite_eq_or_eq _ _ _

/-- A call leaves the structure as it was, or its line has the right sum and the chain ran. -/
theorem parseLine_cases {links : List (List UInt8 → σ → σ)} {rxbuf : Option (List UInt8)}
    {st : σ} {r : Int × σ} (h : parseLine links rxbuf st = some r) :
    (r = (gpsError, st) ∧ ∀ n, ¬ Reaches rxbuf n) ∨
      ∃ line, rxbuf = some line ∧ checksumStep line = some gpsEok ∧ r = parseChain links line st := by
  cases rxbuf with
  | none =>
    cases h
    refine Or.inl ⟨rfl, ?_⟩
    intro n hreach
    obtain ⟨line, hline, -⟩ := hreach
    cases hline
  | some line =>
    obtain ⟨ret, hret, rfl⟩ := Option.map_eq_some_iff.mp h
    rcases checksumStep_cases hret with rfl | rfl
    · exact Or.inr ⟨line, rfl, hret, rfl⟩
    · refine Or.inl ⟨rfl, ?_⟩
      intro n hreach
      obtain ⟨line', hline, hsum, -⟩ := hreach
      cases hline
      rw [hret] at hsum
      cases hsum

theorem parseLine_keeps (proj : σ → τ) {links : List (List UInt8 → σ → σ)} {n : Nat}
    (hlinks : ∀ link ∈ links.take n, ∀ p st, proj (link p st) = proj st)
    {rxbuf : Option (List UInt8)} {st : σ} {r : Int × σ} (h : parseLine links rxbuf st = some r)
    (hreach : ¬ Reaches rxbuf (n + 1)) : proj r.2 = proj st := by
  rcases parseLine_cases h with ⟨rfl, -⟩ | ⟨line, rfl, hsum, rfl⟩
  · rfl
  · refine parseChain_keeps proj hlinks ?_ st
    rw [← Bool.not_eq_true]
    exact fun htokens => hreach ⟨line, rfl, hsum, htokens⟩

/-- A call fails exactly if it does not get to the last token. -/
theorem parseLine_error_iff {links : List (List UInt8 → σ → σ)} {rxbuf : Option (List UInt8)}
    {st : σ} {r : Int × σ} (h : parseLine links rxbuf st = some r) :
    r.1 = gpsError ↔ ¬ Reaches rxbuf links.length := by
  rcases parseLine_cases h with ⟨rfl, hnot⟩ | ⟨line, rfl, hsum, rfl⟩
  · exact iff_of_true rfl (hnot _)
  · rw [parseChain_error_iff, ← Bool.not_eq_true, not_iff_not]
    constructor
    · intro htokens
      exact ⟨line, rfl, hsum, htokens⟩
    · intro hreach
      obtain ⟨line', hline, -, htokens⟩ := hreach
      cases hline
      exact htokens

end Chain

/-- What `gps_get_zda` leaves when it fails. The name of the sentence is the first token. -/
structure ZdaKept (rxbuf : Option (List UInt8)) (zda zda' : GpsZda) : Prop where
  year : zda'.year = zda.year
  mon : ¬ Reaches rxbuf 4 → zda'.mon = zda.mon
  day : ¬ Reaches rxbuf 3 → zda'.day = zda.day
  all : ¬ Reaches rxbuf 2 → zda' = zda

/-- What `gps_get_tm` leaves when it fails. -/
structure TmKept (rxbuf : Option (List UInt8)) (tm tm' : GpsTm) : Prop where
  derived : tm'.tmYear = tm.tmYear ∧ tm'.tmYday = tm.tmYday ∧ tm'.tmWday = tm.tmWday
  mon : ¬ Reaches rxbuf 4 → tm'.tmMon = tm.tmMon
  mday : ¬ Reaches rxbuf 3 → tm'.tmMday = tm.tmMday
  all : ¬ Reaches rxbuf 2 → tm' = tm

/-- What `gps_get_gga` leaves when it fails. -/
structure GgaKept {δ : Type} (rxbuf : Option (List UInt8)) (gga gga' : GpsGga δ) : Prop where
  ewIndicator : gga'.ewIndicator = gga.ewIndicator
  longitude : ¬ Reaches rxbuf 5 → gga'.longitude = gga.longitude
  nsIndicator : ¬ Reaches rxbuf 4 → gga'.nsIndicator = gga.nsIndicator
  all : ¬ Reaches rxbuf 3 → gga' = gga

variable {rxbuf : Option (List UInt8)} {behind : Nat → UInt8}

theorem zda_kept {zda zda' : GpsZda} (h : gpsGetZda behind rxbuf zda = some (gpsError, zda')) :
    ZdaKept rxbuf zda zda' := by
  have hlast : ¬ Reaches rxbuf 5 := (parseLine_error_iff h).mp rfl
  constructor
  · exact parseLine_keeps (fun zda : GpsZda => zda.year) (by simp [zdaLinks]) h hlast
  · exact parseLine_keeps (fun zda : GpsZda => zda.mon) (by simp [zdaLinks]) h
  · exact parseLine_keeps (fun zda : GpsZda => zda.day) (by simp [zdaLinks]) h
  · exact parseLine_keeps (fun zda : GpsZda => zda) (by simp [zdaLinks]) h

theorem tm_kept {tm tm' : GpsTm} (h : gpsGetTm behind rxbuf tm = some (gpsError, tm')) :
    TmKept rxbuf tm tm' := by
  obtain ⟨⟨ret, tm₁⟩, hline, hr⟩ := Option.bind_eq_some_iff.mp h
  have herror : ret = gpsError ∧ tm₁ = tm' := by
    by_cases hok : ret = gpsEok
    · simp only [if_pos hok] at hr
      obtain ⟨w, -, hw⟩ := Option.map_eq_some_iff.mp hr
      rw [hok] at hw
      cases hw
    · simp only [if_neg hok] at hr
      cases hr
      exact ⟨rfl, rfl⟩
  obtain ⟨rfl, rfl⟩ := herror
  have hlast : ¬ Reaches rxbuf 5 := (parseLine_error_iff hline).mp rfl
  constructor
  · have hkept := parseLine_keeps (fun tm : GpsTm => (tm.tmYear, tm.tmYday, tm.tmWday))
      (by simp [tmLinks]) hline hlast
    simpa using hkept
  · exact parseLine_keeps (fun tm : GpsTm => tm.tmMon) (by simp [tmLinks]) hline
  · exact parseLine_keeps (fun tm : GpsTm => tm.tmMday) (by simp [tmLinks]) hline
  · exact parseLine_keeps (fun tm : GpsTm => tm) (by simp [tmLinks]) hline

theorem gga_kept {δ : Type} {scanLf : List UInt8 → Option δ} {div100 : δ → δ} {db2 : δ}
    {gga gga' : GpsGga δ} (h : gpsGetGga scanLf div100 db2 rxbuf gga = some (gpsError, gga')) :
    GgaKept rxbuf gga gga' := by
  obtain ⟨⟨ret, db2', gga₁⟩, hline, hr⟩ := Option.map_eq_some_iff.mp h
  cases hr
  have hlast : ¬ Reaches rxbuf 6 := (parseLine_error_iff hline).mp rfl
  constructor
  · exact parseLine_keeps (fun st : δ × GpsGga δ => st.2.ewIndicator) (by simp [ggaLinks]) hline hlast
  · exact parseLine_keeps (fun st : δ × GpsGga δ => st.2.longitude) (by simp [ggaLinks]) hline
  · exact parseLine_keeps (fun st : δ × GpsGga δ => st.2.nsIndicator) (by simp [ggaLinks]) hline
  · exact parseLine_keeps (fun st : δ × GpsGga δ => st.2) (by simp [ggaLinks]) hline

/-- A parser that fails has changed no member whose token it did not get to; if it did not get to
the first token it stores, it has changed nothing. -/
theorem failed_parses_keep {δ : Type} (behind : Nat → UInt8) (scanLf : List UInt8 → Option δ)
    (div100 : δ → δ) (db2 : δ) (rxbuf : Option (List UInt8)) :
    (∀ zda zda', gpsGetZda behind rxbuf zda = some (gpsError, zda') → ZdaKept rxbuf zda zda') ∧
    (∀ tm tm', gpsGetTm behind rxbuf tm = some (gpsError, tm') → TmKept rxbuf tm tm') ∧
    (∀ gga gga', gpsGetGga scanLf div100 db2 rxbuf gga = some (gpsError, gga') →
      GgaKept rxbuf gga gga') :=
  ⟨fun _ _ => zda_kept, fun _ _ => tm_kept, fun _ _ => gga_kept⟩

/-- The line `$GPZDA,123456*63`, which ends behind its first field. -/
def cutLine : List UInt8 := [36, 71, 80, 90, 68, 65, 44, 49, 50, 51, 52, 53, 54, 42, 54, 51]

theorem failed_parses_keep_cut_line :
    (gpsGetZda (fun _ => 0) (some cutLine) ⟨0, 0, 0, 0, 1, 1, 1⟩ =
        some (gpsError, ⟨63, 56, 34, 12, 1, 1, 1⟩)) ∧
      ZdaKept (some cutLine) ⟨0, 0, 0, 0, 1, 1, 1⟩ ⟨63, 56, 34, 12, 1, 1, 1⟩ := by
  have h : gpsGetZda (fun _ => 0) (some cutLine) ⟨0, 0, 0, 0, 1, 1, 1⟩ =
      some (gpsError, ⟨63, 56, 34, 12, 1, 1, 1⟩) := by
    decide
  exact ⟨h, (failed_parses_keep (fun _ => 0) (fun _ => none) id (0 : Nat) (some cutLine)).1 _ _ h⟩

/-- The time of day is stored before the missing date makes the call fail. -/
theorem failed_parse_stores_time :
    ∃ zda', gpsGetZda (fun _ => 0) (some cutLine) ⟨0, 0, 0, 0, 1, 1, 1⟩ = some (gpsError, zda') ∧
      zda'.hour = 12 ∧ zda' ≠ ⟨0, 0, 0, 0, 1, 1, 1⟩ :=
  ⟨⟨63, 56, 34, 12, 1, 1, 1⟩, by decide, rfl, by decide⟩

end BackupSoftware.Gps
