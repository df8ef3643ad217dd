/-
  CsvQuery.Proofs.Settings.RoundTrip — settings are read back from their document exactly if they are valid.

  Written settings are cut into the tokens of their members, with commas between them.  Reading goes
  member by member: each sets its field as it was written and is the first to do so, so after all of them
  the settings are the written ones, whatever they were before.  Only then are they checked, and a blank
  address is all that can be wrong with them.

  Main results:
    • `Settings.tokens_toJson` — the tokens of a document
    • `Settings.run_readMembers` — reading the members
    • `Settings.ofJson_toJson` — a document holds the settings that it was written for
    • `HostSettings.read_back_iff` — all of it, for settings with a path of the host
-/
import CsvQuery.Proofs.Json.Written
import CsvQuery.Proofs.Text.Utf8
import CsvQuery.Settings.Host

namespace CsvQuery

open Json

/-! ## §1. Names -/

/-- A field is known by its name. -/
theorem SettingsField.ofName?_name (field : SettingsField) : ofName? field.name = some field := by
  cases field <;> rfl

theorem JoinStrategy.ofName?_name (strategy : JoinStrategy) :
    ofName? strategy.name = some strategy := by
  cases strategy <;> rfl

namespace Settings

/-! ## §2. The tokens of a document -/

/-- The token that the value of a field makes. -/
def valueToken (settings : Settings) : SettingsField → Token
  | .serverAddr => .text (written settings.serverAddr)
  | .storageAddr => .text (written settings.storageAddr)
  | .dataPath => .text (written settings.dataPath)
  | .cacheCapacity => digitsToken settings.cacheCapacity.toNat
  | .joinStrategy => .text (written settings.joinStrategy.name)

/-- The tokens that a member makes. -/
def memberTokens (settings : Settings) (field : SettingsField) : List Token :=
  [.text (written field.name), .colon, settings.valueToken field]

/-- A mark stands after all pieces but the last. -/
theorem intercalate_map_append {α β : Type} (mark : β) (f : α → List β) (a b : α) (more : List α)
    (rest : List β) :
    [mark].intercalate ((a :: b :: more).map f) ++ rest
      = f a ++ mark :: ([mark].intercalate ((b :: more).map f) ++ rest) := by
  simp

section Tokens

variable (settings : Settings) {c : Char}

/-- The value of a field makes one token. -/
theorem tokens_writeField (field : SettingsField) (h : EndsNumber c) (rest : List Char) :
    Json.tokens (settings.writeField field ++ c :: rest)
      = settings.valueToken field :: Json.tokens (c :: rest) := by
  cases field with
  | cacheCapacity => exact tokens_digits _ h rest
  | serverAddr => exact tokens_writeText _ _
  | storageAddr => exact tokens_writeText _ _
  | dataPath => exact tokens_writeText _ _
  | joinStrategy => exact tokens_writeText _ _

/-- A member makes its name, a colon and the token of its value; the indentation makes none. -/
theorem tokens_writeMember (field : SettingsField) (h : EndsNumber c) (rest : List Char) :
    Json.tokens (settings.writeMember field ++ c :: rest)
      = settings.memberTokens field ++ Json.tokens (c :: rest) := by
  have hline : settings.writeMember field ++ c :: rest
      = '\n' :: ' ' :: ' ' :: (writeText field.name
          ++ ':' :: ' ' :: (settings.writeField field ++ c :: rest)) := by
    simp [writeMember]
  rw [hline, tokens_space rfl, tokens_space rfl, tokens_space rfl, tokens_writeText,
    tokens_cons (by decide)]
  show _ :: Token.colon :: Json.tokens (' ' :: _) = _
  rw [tokens_space rfl, tokens_writeField settings field h]
  rfl

/-- Members make their tokens with commas between them, up to the brace that closes the document. -/
theorem tokens_writeMembers (field : SettingsField) (fields : List SettingsField) :
    Json.tokens ([','].intercalate ((field :: fields).map settings.writeMember) ++ ['\n', '\x7d'])
      = [.comma].intercalate ((field :: fields).map settings.memberTokens) ++ [.closeObject] := by
  induction fields generalizing field with
  | nil =>
    have hclose : Json.tokens ['\n', '\x7d'] = [.closeObject] := by
      rw [tokens_space rfl, tokens_cons (by decide)]
      show Token.closeObject :: Json.tokens [] = _
      rw [Json.tokens]
    rw [List.map_singleton, List.map_singleton, List.intercalate_singleton, List.intercalate_singleton,
      tokens_writeMember settings field (by decide), hclose]
  | cons next fields ih =>
    have hcomma (rest : List Char) : Json.tokens (',' :: rest) = .comma :: Json.tokens rest :=
      tokens_cons (by decide) rest
    rw [intercalate_map_append, tokens_writeMember settings field (by decide), hcomma, ih,
      intercalate_map_append]

/-- The tokens of a document are those of its members, with commas between them. -/
theorem tokens_toJson :
    Json.tokens settings.toJson.toList
      = .openObject :: ([.comma].intercalate (SettingsField.all.map settings.memberTokens)
          ++ [.closeObject]) := by
  have hopen (rest : List Char) : Json.tokens ('\x7b' :: rest) = .openObject :: Json.tokens rest :=
    tokens_cons (by decide) rest
  unfold toJson
  rw [String.toList_ofList, hopen, SettingsField.all, tokens_writeMembers]

end Tokens

/-! ## §3. Members -/

/-- Settings with one field as in others. -/
def copyField (source settings : Settings) : SettingsField → Settings
  | .serverAddr => { settings with serverAddr := source.serverAddr }
  | .storageAddr => { settings with storageAddr := source.storageAddr }
  | .dataPath => { settings with dataPath := source.dataPath }
  | .cacheCapacity => { settings with cacheCapacity := source.cacheCapacity }
  | .joinStrategy => { settings with joinStrategy := source.joinStrategy }

/-- Whatever the settings were before, with all fields as in others they are the others. -/
theorem foldl_copyField (source settings : Settings) :
    SettingsField.all.foldl (copyField source) settings = source := rfl

/-- A reader of join strategies gets back the strategy that was written. -/
theorem run_strategy (strategy : JoinStrategy) (rest : List Token) :
    Reader.strategy.run (.text (written strategy.name) :: rest) = .ok (strategy, rest) := by
  unfold Reader.strategy
  rw [Reader.run_bind (Reader.run_sees_of_ne (by simp) rest)]
  show Reader.strategyName.run _ = _
  unfold Reader.strategyName
  rw [Reader.run_bind (Reader.run_key _ rest), JoinStrategy.ofName?_name]
  rfl

/-- Reading the value of a field sets this field as it was written, and no other. -/
theorem run_readField (source settings : Settings) (field : SettingsField) (rest : List Token) :
    (settings.readField field).run (source.valueToken field :: rest)
      = .ok (copyField source settings field, rest) := by
  cases field with
  | serverAddr => exact Reader.run_bind (Reader.run_text _ rest) _
  | storageAddr => exact Reader.run_bind (Reader.run_text _ rest) _
  | dataPath => exact Reader.run_bind (Reader.run_text _ rest) _
  | cacheCapacity => exact Reader.run_bind (Reader.run_word _ rest) _
  | joinStrategy => exact Reader.run_bind (run_strategy _ rest) _

/-- A member that was not given before sets its field. -/
theorem run_readMember (source : Settings) {p : Members} {field : SettingsField}
    (hnew : field ∉ p.given) (rest : List Token) :
    (p.readMember field.name).run (.colon :: source.valueToken field :: rest)
      = .ok (⟨copyField source p.settings field, field :: p.given⟩, rest) := by
  unfold Members.readMember
  rw [SettingsField.ofName?_name]
  dsimp only
  rw [if_neg hnew, Reader.run_bind (Reader.run_expect _ _), Reader.run_bind (run_readField source _ _ rest)]
  rfl

/-- A member before the end of the object sets its field, and nothing is left. -/
theorem run_readMembers_closeObject (source : Settings) {p : Members} {field : SettingsField}
    (hnew : field ∉ p.given) (bound : Nat) (rest : List Token) :
    (p.readMembers (bound + 1)).run (source.memberTokens field ++ .closeObject :: rest)
      = .ok (copyField source p.settings field, rest) := by
  show (p.readMembers (bound + 1)).run
    (.text (written field.name) :: .colon :: source.valueToken field :: .closeObject :: rest) = _
  rw [Members.readMembers, Reader.run_bind (Reader.run_key _ _),
    Reader.run_bind (run_readMember source hnew _), Reader.run_bind (Reader.run_next _ _)]
  rfl

/-- A member before a comma sets its field, and the next member is read. -/
theorem run_readMembers_comma (source : Settings) {p : Members} {field : SettingsField}
    (hnew : field ∉ p.given) (bound : Nat) (rest : List Token) :
    (p.readMembers (bound + 1)).run (source.memberTokens field ++ .comma :: rest)
      = (Members.readMembers ⟨copyField source p.settings field, field :: p.given⟩ bound).run rest := by
  show (p.readMembers (bound + 1)).run
    (.text (written field.name) :: .colon :: source.valueToken field :: .comma :: rest) = _
  rw [Members.readMembers, Reader.run_bind (Reader.run_key _ _),
    Reader.run_bind (run_readMember source hnew _), Reader.run_bind (Reader.run_next _ _)]

/-- Members of fields that are not given yet set these fields, one after the other. -/
theorem run_readMembers (source : Settings) (field : SettingsField) (fields : List SettingsField)
    {p : Members} {bound : Nat} (hbound : fields.length < bound)
    (hnodup : (field :: fields).Nodup) (hnew : ∀ f ∈ field :: fields, f ∉ p.given) :
    (p.readMembers bound).run
        ([.comma].intercalate ((field :: fields).map source.memberTokens) ++ [.closeObject])
      = .ok ((field :: fields).foldl (copyField source) p.settings, []) := by
  induction fields generalizing field p bound with
  | nil =>
    obtain ⟨bound, rfl⟩ := Nat.exists_eq_add_one_of_ne_zero (Nat.ne_zero_of_lt hbound)
    rw [List.map_singleton, List.intercalate_singleton]
    exact run_readMembers_closeObject source (hnew field List.mem_cons_self) bound []
  | cons next fields ih =>
    obtain ⟨bound, rfl⟩ := Nat.exists_eq_add_one_of_ne_zero (Nat.ne_zero_of_lt hbound)
    rw [List.nodup_cons] at hnodup
    -- the fields after this one are new also when it is given
    have hlater : ∀ f ∈ next :: fields, f ∉ field :: p.given := by
      intro f hf hgiven
      cases hgiven with
      | head => exact hnodup.1 hf
      | tail _ hgiven => exact hnew f (List.mem_cons_of_mem _ hf) hgiven
    rw [intercalate_map_append, run_readMembers_comma source (hnew field List.mem_cons_self),
      ih next (Nat.lt_of_succ_lt_succ hbound) hnodup.2 hlater]
    rfl

/-! ## §4. Documents -/

/-- The members of a document, read into default settings, make the settings that were written. -/
theorem run_readObject (settings : Settings) {bound : Nat} (hbound : 4 < bound) :
    (readObject bound).run
        ([.comma].intercalate (SettingsField.all.map settings.memberTokens) ++ [.closeObject])
      = .ok (settings, []) := by
  have hmembers : (Members.readMembers ⟨default, []⟩ bound).run
      ([.comma].intercalate (SettingsField.all.map settings.memberTokens) ++ [.closeObject])
      = .ok (SettingsField.all.foldl (copyField settings) default, []) :=
    run_readMembers settings .serverAddr _ hbound (by decide) (by simp)
  rw [foldl_copyField] at hmembers
  -- the object does not end at once
  obtain ⟨rest, hrest⟩ : ∃ rest, [Token.comma].intercalate (SettingsField.all.map settings.memberTokens)
      ++ [.closeObject] = .text (written SettingsField.serverAddr.name) :: rest := ⟨_, rfl⟩
  rw [hrest] at hmembers ⊢
  unfold readObject
  rw [Reader.run_bind (Reader.run_sees_of_ne (by simp) rest)]
  exact hmembers

/-- The tokens of a document are read as the settings that it was written for. -/
theorem ofTokens_toJson (settings : Settings) :
    ofTokens (Json.tokens settings.toJson.toList) = .ok settings := by
  have hbound : 4 < (Json.tokens settings.toJson.toList).length := by
    rw [tokens_toJson]
    simp [SettingsField.all, memberTokens]
  have hreader : (reader (Json.tokens settings.toJson.toList).length).run
      (Json.tokens settings.toJson.toList) = .ok (settings, []) := by
    generalize (Json.tokens settings.toJson.toList).length = bound at hbound ⊢
    rw [tokens_toJson]
    unfold reader
    rw [Reader.run_bind (Reader.run_next _ _)]
    exact run_readObject settings hbound
  unfold ofTokens
  rw [Reader.run_bind hreader]
  rfl

/-- A document holds the settings that it was written for; only whether they are valid is open. -/
theorem ofJson_toJson (settings : Settings) : ofJson settings.toJson = settings.validate := by
  unfold ofJson
  rw [ofTokens_toJson]

theorem isBlankText_eq_false_iff {text : String} :
    isBlankText text = false ↔ ∃ c ∈ text.toList, isBlank c = false := by
  simp [isBlankText]

theorem isBlankText_eq_true_iff {text : String} :
    isBlankText text = true ↔ ∀ c ∈ text.toList, isBlank c = true := by
  simp [isBlankText]

end Settings

namespace HostSettings

/-- Settings of the host have settings in texts exactly when they are those with their path encoded. -/
theorem toSettings?_eq_some_iff {host : HostSettings} {settings : Settings} :
    host.toSettings? = some settings ↔ ofSettings settings = host := by
  unfold toSettings?
  constructor
  · intro h
    obtain ⟨path, hpath, hsettings⟩ := Option.bind_eq_some_iff.mp h
    cases hsettings
    unfold ofSettings
    rw [utf8_of_ofUtf8? hpath]
  · intro h
    subst h
    show (ofUtf8? (utf8 settings.dataPath)).bind _ = _
    rw [ofUtf8?_utf8]
    rfl

/-- Settings can be written exactly if their data path is a text. -/
theorem toJson_eq_ok_iff {host : HostSettings} {document : String} :
    host.toJson = .ok document ↔ ∃ settings, ofSettings settings = host ∧ settings.toJson = document := by
  unfold toJson
  cases hsettings : host.toSettings? <;> simp [← toSettings?_eq_some_iff, hsettings]

/-- A document is read as the settings that it was written for, if they are valid. -/
theorem ofJson_document (settings : Settings) :
    ofJson settings.toJson = settings.validate.map ofSettings := by
  unfold ofJson
  rw [Settings.ofJson_toJson]

/-! ## §5. Validity -/

/-- Settings whose data path is a text are written, and what is written is read back as they are exactly if
each address has a character that is not blank.  Otherwise the first address without one is refused. -/
theorem read_back_iff (host : HostSettings) (path : String) (hpath : host.dataPath = utf8 path) :
    ∃ document, host.toJson = .ok document ∧
      (ofJson document = .ok host ↔
        (∃ c ∈ host.serverAddr.toList, isBlank c = false) ∧
        ∃ c ∈ host.storageAddr.toList, isBlank c = false) ∧
      ((∀ c ∈ host.serverAddr.toList, isBlank c = true) →
        ofJson document = .error (.config "server_addr must not be empty")) ∧
      ((∃ c ∈ host.serverAddr.toList, isBlank c = false) →
        (∀ c ∈ host.storageAddr.toList, isBlank c = true) →
        ofJson document = .error (.config "storage_addr must not be empty")) := by
  obtain ⟨settings, rfl⟩ : ∃ settings, ofSettings settings = host :=
    ⟨⟨host.serverAddr, host.storageAddr, path, host.cacheCapacity, host.joinStrategy⟩,
      by rw [ofSettings, ← hpath]⟩
  have hserver : (ofSettings settings).serverAddr = settings.serverAddr := rfl
  have hstorage : (ofSettings settings).storageAddr = settings.storageAddr := rfl
  refine ⟨settings.toJson, toJson_eq_ok_iff.mpr ⟨settings, rfl, rfl⟩, ?_⟩
  rw [ofJson_document, hserver, hstorage, ← Settings.isBlankText_eq_false_iff,
    ← Settings.isBlankText_eq_false_iff, ← Settings.isBlankText_eq_true_iff,
    ← Settings.isBlankText_eq_true_iff]
  -- reading was faithful, so what is left is the check of the two addresses
  unfold Settings.validate
  cases Settings.isBlankText settings.serverAddr with
  | true => simp [Except.map]
  | false => cases Settings.isBlankText settings.storageAddr <;> simp [Except.map]

/-- Quotes, backslashes, control characters and characters outside ASCII come back, and so does the largest
capacity; an address of blanks does not. -/
theorem read_back_iff_escaped :
    (∃ document,
      toJson ⟨"a\"b\\c", "\u0001\u001f\u007fü😀", [0x64, 0xC3, 0xA4], 0xFFFFFFFFFFFFFFFF, .sortMerge⟩
        = .ok document ∧
      ofJson document
        = .ok ⟨"a\"b\\c", "\u0001\u001f\u007fü😀", [0x64, 0xC3, 0xA4], 0xFFFFFFFFFFFFFFFF, .sortMerge⟩) ∧
    ∃ document, toJson ⟨"a", "\t\u3000", [], 0, .hash⟩ = .ok document ∧
      ofJson document = .error (.config "storage_addr must not be empty") := by
  constructor
  · obtain ⟨document, hwritten, hread, -, -⟩ := read_back_iff
      ⟨"a\"b\\c", "\u0001\u001f\u007fü😀", [0x64, 0xC3, 0xA4], 0xFFFFFFFFFFFFFFFF, .sortMerge⟩ "dä" (by decide)
    exact ⟨document, hwritten, hread.mpr ⟨⟨'a', by decide, by decide⟩, 'ü', by decide, by decide⟩⟩
  · obtain ⟨document, hwritten, -, -, hstorage⟩ := read_back_iff ⟨"a", "\t\u3000", [], 0, .hash⟩ "" (by decide)
    exact ⟨document, hwritten, hstorage ⟨'a', by decide, by decide⟩
      (Settings.isBlankText_eq_true_iff.mp (by decide))⟩

end HostSettings

end CsvQuery
