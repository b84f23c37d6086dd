import WxcodeAdm.System

/-! A backup code is accepted as it was shown, although its random part may contain dashes. -/

namespace WxcodeAdm

open Lib

variable {c enrolment : Ctx} {lib : Library} {s : World} {userId id : Uuid} {i : Nat}
  {code raw salt : String}

/-- `verify_password(p, hash_password(q))` holds exactly when `p` is `q`. -/
def VerifiesExactly (lib : Library) : Prop :=
  ∀ p salt q, lib.verifyPassword p (lib.hashPassword salt q) = true ↔ p = q

/-! ### The code -/

/-- `f"{raw[:5]}-{raw[5:]}"` -/
def formattedCode (raw : String) : String :=
  String.ofList (raw.toList.take 5) ++ "-" ++ String.ofList (raw.toList.drop 5)

theorem toList_formattedCode (raw : String) :
    (formattedCode raw).toList = raw.toList.take 5 ++ '-' :: raw.toList.drop 5 := by
  simp [formattedCode]

theorem length_formattedCode (raw : String) : (formattedCode raw).length = raw.length + 1 := by
  rw [← String.length_toList, ← String.length_toList, toList_formattedCode, List.length_append,
    List.length_cons, ← Nat.add_assoc, ← List.length_append, List.take_append_drop]

/-- The dash that was added goes, and with it those of the random part. -/
theorem stripDashes_formattedCode (raw : String) :
    stripDashes (formattedCode raw) = stripDashes raw := by
  rw [stripDashes, stripDashes, toList_formattedCode, List.filter_append,
    List.filter_cons_of_neg (by decide), ← List.filter_append, List.take_append_drop]

theorem generateBackupCodes_get (userId : Uuid) (h : c.draws.backupCodes[i]? = some (id, salt, raw)) :
    (generateBackupCodes c userId).1[i]? = some (formattedCode raw) ∧
      (generateBackupCodes c userId).2[i]? =
        some { id, userId, codeHash := c.lib.hashPassword salt (stripDashes raw) } := by
  rw [generateBackupCodes, List.getElem?_map, List.getElem?_map, h]
  exact ⟨rfl, rfl⟩

/-! ### The loop -/

/-- The row is an unused one of the user, and its hash accepts the code. -/
def MfaBackupCode.Matches (lib : Library) (userId : Uuid) (code : String) (b : MfaBackupCode) :
    Prop :=
  b.userId = userId ∧ b.usedAt = none ∧ lib.verifyPassword (stripDashes code) b.codeHash = true

/-- The first row that the code matches becomes used, and every other one stays as it is. -/
def MarksFirst (lib : Library) (userId : Uuid) (code : String) (now : Nat)
    (before after : List MfaBackupCode) : Prop :=
  ∃ front marked back, before = front ++ marked :: back ∧ marked.Matches lib userId code ∧
    (∀ b ∈ front, ¬b.Matches lib userId code) ∧
    after = front ++ { marked with usedAt := some now } :: back

theorem matchingBackupCode_eq_find? (userId : Uuid) (code : String) (db : Db) :
    matchingBackupCode c userId code db = db.backupCodes.find? fun b =>
      decide (b.userId = userId ∧ b.usedAt = none) &&
        c.lib.verifyPassword (stripDashes code) b.codeHash := by
  simp [matchingBackupCode, List.find?_filter]

theorem matches_iff {b : MfaBackupCode} :
    (decide (b.userId = userId ∧ b.usedAt = none) &&
      lib.verifyPassword (stripDashes code) b.codeHash) = true ↔ b.Matches lib userId code := by
  simp [MfaBackupCode.Matches, and_assoc]

/-- Rows with unique ids, one of which is updated. -/
theorem updateBackupCode_append {db : Db} {front back : List MfaBackupCode} {row : MfaBackupCode}
    (f : MfaBackupCode → MfaBackupCode) (hIds : (db.backupCodes.map fun b => b.id).Nodup)
    (hRows : db.backupCodes = front ++ row :: back) :
    db.updateBackupCode row.id f = { db with backupCodes := front ++ f row :: back } := by
  have hKeep (rows : List MfaBackupCode) (h : ∀ b ∈ rows, b.id ≠ row.id) :
      rows.map (fun b => if b.id = row.id then f b else b) = rows :=
    (List.map_congr_left fun b hb => if_neg (h b hb)).trans (List.map_id rows)
  have hApart : (∀ b ∈ front, b.id ≠ row.id) ∧ ∀ b ∈ back, b.id ≠ row.id := by
    rw [hRows, List.map_append, List.map_cons, List.nodup_append, List.nodup_cons] at hIds
    obtain ⟨-, ⟨hBack, -⟩, hFront⟩ := hIds
    refine ⟨fun b hb => ?_, fun b hb hSame => hBack (hSame ▸ List.mem_map_of_mem hb)⟩
    exact hFront b.id (List.mem_map_of_mem hb) row.id List.mem_cons_self
  have hFound : (db.backupCodes.any fun b => b.id = row.id) = true := by
    simp [hRows]
  rw [Db.updateBackupCode, hFound, hRows, List.map_append, List.map_cons, hKeep front hApart.1,
    hKeep back hApart.2, if_pos rfl]
  simp

/-- The loop accepts a code that some row matches, and marks one row. -/
theorem redeemBackupCode_marks (hIds : (s.db.backupCodes.map fun b => b.id).Nodup)
    (hMatch : ∃ row ∈ s.db.backupCodes, row.Matches c.lib userId code) :
    ∃ codes, MarksFirst c.lib userId code c.now s.db.backupCodes codes ∧
      (redeemBackupCode c userId code).run s =
        .ok () { s with db := { s.db with backupCodes := codes } } := by
  obtain ⟨row, hRow, hMatches⟩ := hMatch
  cases hFound : matchingBackupCode c userId code s.db with
  | none =>
    rw [matchingBackupCode_eq_find?, List.find?_eq_none] at hFound
    exact absurd (matches_iff.mpr hMatches) (hFound row hRow)
  | some marked =>
    have hFirst := hFound
    rw [matchingBackupCode_eq_find?, List.find?_eq_some_iff_append] at hFirst
    obtain ⟨hMarked, front, back, hRows, hFront⟩ := hFirst
    refine ⟨_, ⟨front, marked, back, hRows, matches_iff.mp hMarked, ?_, rfl⟩, ?_⟩
    · intro b hb hMatches
      have hNot := hFront b hb
      rw [matches_iff.mpr hMatches] at hNot
      cases hNot
    · rw [redeemBackupCode, Handler.run_query_bind, hFound, Handler.orRaise_some_bind,
        Handler.run_exec, updateBackupCode_append _ hIds hRows]

/-! ### Shown and accepted -/

/-- The code at a place of the enrolment's list fits the requests, and strips to what was hashed.
Both loops accept it and mark one row. -/
def AcceptedAsShown (enrolment c : Ctx) (s : World) (userId : Uuid) (i : Nat) (salt : String) :
    Prop :=
  ∃ shown, (generateBackupCodes enrolment userId).1[i]? = some shown ∧
    (∃ body : MfaVerifyRequest, body.code = shown) ∧
    (∃ body : MfaDisableRequest, body.code = shown) ∧
    (∃ row, (generateBackupCodes enrolment userId).2[i]? = some row ∧
      row.codeHash = c.lib.hashPassword salt (stripDashes shown)) ∧
    ∃ codes, MarksFirst c.lib userId shown c.now s.db.backupCodes codes ∧
      ∀ user : User, user.id = userId → totpVerify c user.mfaSecret shown = .ok false →
        replayedCode c userId shown s.cache = false ∧
        (verifySecondFactor c user shown).run s =
          .ok () { s with db := { s.db with backupCodes := codes } } ∧
        (checkDisableCode c user shown).run s =
          .ok () { s with db := { s.db with backupCodes := codes } }

/-- While the row of a code is unused, the code is accepted as it was shown, whatever other codes
are stored. -/
theorem shown_code_accepted (hExact : VerifiesExactly c.lib) (hLib : enrolment.lib = c.lib)
    (hDraw : enrolment.draws.backupCodes[i]? = some (id, salt, raw)) (hLength : raw.length = 10)
    (hIds : (s.db.backupCodes.map fun b => b.id).Nodup)
    (hUnused : ∃ row ∈ s.db.backupCodes, (generateBackupCodes enrolment userId).2[i]? = some row) :
    AcceptedAsShown enrolment c s userId i salt := by
  obtain ⟨hShown, hRow⟩ := generateBackupCodes_get userId hDraw
  have hFits : 6 ≤ (formattedCode raw).length ∧ (formattedCode raw).length ≤ 11 := by
    rw [length_formattedCode, hLength]
    decide
  have hMatch : ∃ row ∈ s.db.backupCodes, row.Matches c.lib userId (formattedCode raw) := by
    obtain ⟨row, hStored, hSame⟩ := hUnused
    obtain rfl := Option.some.inj (hRow.symm.trans hSame)
    refine ⟨_, hStored, rfl, rfl, ?_⟩
    rw [stripDashes_formattedCode, hLib]
    exact (hExact _ _ _).mpr rfl
  obtain ⟨codes, hMarks, hRun⟩ := redeemBackupCode_marks hIds hMatch
  refine ⟨_, hShown, ⟨⟨"", _, false, hFits⟩, rfl⟩, ⟨⟨_, hFits⟩, rfl⟩, ⟨_, hRow, ?_⟩, codes, hMarks,
    fun user hUser hTotp => ⟨?_, ?_, ?_⟩⟩
  · rw [stripDashes_formattedCode, hLib]
  · have hLong : isTotpCode c (formattedCode raw) = false := by
      rw [isTotpCode, length_formattedCode, hLength]
      rfl
    rw [replayedCode, hLong, Bool.false_and]
  · rw [verifySecondFactor, hTotp, Handler.ofExcept_ok_bind, hUser]
    exact hRun
  · rw [checkDisableCode, hTotp, Handler.ofExcept_ok_bind, hUser]
    exact hRun

/-! ### Two codes that strip to one -/

/-- Hashes that begin with eight characters of salt. -/
def saltedLib : Library :=
  { sampleLib with
    hashPassword := fun salt plain =>
      .ofList ((salt.toList ++ List.replicate 8 '.').take 8 ++ plain.toList)
    verifyPassword := fun plain hash => decide (hash.toList.drop 8 = plain.toList) }

theorem saltedLib_exact : VerifiesExactly saltedLib := by
  intro p salt q
  have hSalt : ((salt.toList ++ List.replicate 8 '.').take 8).length = 8 := by simp
  simp only [saltedLib, decide_eq_true_eq, String.toList_ofList]
  rw [List.drop_left' hSalt, String.toList_inj]
  exact eq_comm

def twinContext : Ctx :=
  ⟨⟨{}, saltedLib⟩, 0,
    { sampleDraws 1 with backupCodes := [(⟨1⟩, "s", "AB-CDEFGH_"), (⟨2⟩, "t", "ABC-DEFGH_")] }⟩

def twinWorld : World := ⟨{ backupCodes := (generateBackupCodes twinContext ⟨1⟩).2 }, {}⟩

theorem shown_code_accepted_twin : AcceptedAsShown twinContext twinContext twinWorld ⟨1⟩ 1 "t" :=
  shown_code_accepted saltedLib_exact rfl rfl (by decide) (by decide)
    ⟨_, .tail _ (.head _), rfl⟩

end WxcodeAdm
