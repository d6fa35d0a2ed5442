import SpeechDispatch.Config.Loading
import SpeechDispatch.Proofs.Decimals
import SpeechDispatch.Proofs.SettingsReading
import SpeechDispatch.Proofs.UrlText
import SpeechDispatch.Proofs.Validation

/-!
# Settings from the environment

A variable gives a setting of its own, but its text is taken for a truth value, a whole number or a double where it can
be, and a setting that is a text gets what that is printed as (`Environment.reprint`).  Where settings are checked for
their form nothing that is printed so passes, so these are the texts of their variables as they stand; the names of
queues are not (`Settings.load_spec`).
-/

namespace SpeechDispatch

open Decimal (isNumeralChar isNumeralChar_of_isDigit)

namespace Environment

/-- The text that a text setting gets from the text of a variable. -/
def reprint (text : String) : String :=
  match value text with
  | .bool b => toString b
  | .integer n => toString n
  | .float x => Decimal.plain.write x
  | _ => text

/-- The value of a variable is a truth value, a number or the text itself. -/
theorem value_cases (text : String) :
    (∃ b, value text = .bool b) ∨ (∃ n, value text = .integer n) ∨ (∃ x, value text = .float x) ∨
      value text = .text text := by
  unfold value
  dsimp only
  split
  · exact .inl ⟨_, rfl⟩
  split
  · exact .inl ⟨_, rfl⟩
  split
  · exact .inr (.inl ⟨_, rfl⟩)
  split
  · exact .inr (.inr (.inl ⟨_, rfl⟩))
  · exact .inr (.inr (.inr rfl))

theorem value_ne_table (text : String) (members : List (String × Document)) : value text ≠ .table members := by
  obtain ⟨b, h⟩ | ⟨n, h⟩ | ⟨x, h⟩ | h := value_cases text <;> rw [h] <;> exact nofun

theorem value_ne_null (text : String) : value text ≠ .null := by
  obtain ⟨b, h⟩ | ⟨n, h⟩ | ⟨x, h⟩ | h := value_cases text <;> rw [h] <;> exact nofun

theorem lenientText_value (text : String) : ReadingRules.lenientText (value text) = some (reprint text) := by
  obtain ⟨b, h⟩ | ⟨n, h⟩ | ⟨x, h⟩ | h := value_cases text <;> simp only [reprint, h, ReadingRules.lenientText]

/-- A whole number has a digit, and no characters but those of numbers. -/
theorem toString_int_chars (n : Int) :
    (∃ c ∈ (toString n).toList, c.isDigit = true) ∧ ∀ c ∈ (toString n).toList, isNumeralChar c = true := by
  have hdigits : ∀ c ∈ Nat.toDigits 10 n.natAbs, c.isDigit = true := fun c hc => Decimal.isDigit_of_mem_digits hc
  obtain ⟨c, hc⟩ := List.exists_mem_of_ne_nil (Nat.toDigits 10 n.natAbs) (by simp)
  rw [Decimal.toList_toString_int]
  refine ⟨⟨c, List.mem_append_right _ hc, hdigits c hc⟩, fun d hd => ?_⟩
  obtain hd | hd := List.mem_append.1 hd
  · split at hd
    · obtain rfl := List.mem_singleton.1 hd
      rfl
    · cases hd
  · exact isNumeralChar_of_isDigit (hdigits d hd)

/-- What is printed in place of a text: a word or something with digits, and no characters but those of numbers. -/
theorem reprint_cases (text : String) :
    reprint text = text ∨
      (reprint text ∈ ["true", "false", "NaN", "inf", "-inf"] ∨ ∃ c ∈ (reprint text).toList, c.isDigit = true) ∧
        ∀ c ∈ (reprint text).toList, isNumeralChar c = true := by
  unfold reprint
  obtain ⟨b, h⟩ | ⟨n, h⟩ | ⟨x, h⟩ | h := value_cases text <;> rw [h] <;> dsimp only
  · have hwords : ["true", "false"].all (fun word => word.toList.all isNumeralChar) = true := by decide
    have hword : ∀ word ∈ ["true", "false"], ∀ c ∈ word.toList, isNumeralChar c = true :=
      fun word hword => List.all_eq_true.1 (List.all_eq_true.1 hwords word hword)
    have hmem : toString b ∈ ["true", "false"] := by cases b <;> decide
    exact .inr ⟨.inl (List.mem_append_left ["NaN", "inf", "-inf"] hmem), hword _ hmem⟩
  · exact .inr ⟨.inr (toString_int_chars n).1, (toString_int_chars n).2⟩
  · obtain ⟨hname | hdigit, hall⟩ := Decimal.plain_write_cases x
    · exact .inr ⟨.inl (List.mem_cons_of_mem _ (List.mem_cons_of_mem _ hname)), hall⟩
    · exact .inr ⟨.inr hdigit, hall⟩
  · exact .inl rfl

/-- A text is left alone if it comes out with a character that numbers do not have. -/
theorem reprint_eq_of_mem {text : String} {c : Char} (hc : c ∈ (reprint text).toList)
    (hnumeral : isNumeralChar c = false) : reprint text = text := by
  obtain h | ⟨-, hall⟩ := reprint_cases text
  · exact h
  · rw [hall c hc] at hnumeral
    cases hnumeral

theorem toList_toLower (text : String) : text.toLower.toList = text.toList.map Char.toLower := String.toList_map

theorem toList_toUpper (text : String) : text.toUpper.toList = text.toList.map Char.toUpper := String.toList_map

private theorem toLower_of_isDigit {c : Char} (h : c.isDigit = true) : c.toLower = c := by
  simp only [Char.isDigit, Bool.and_eq_true, decide_eq_true_eq, ge_iff_le, UInt32.le_iff_toNat_le] at h
  unfold Char.toLower
  rw [dif_neg]
  simp only [ge_iff_le, UInt32.le_iff_toNat_le, not_and, not_le]
  intro hupper
  exact absurd (hupper.trans h.2) (by decide)

/-- No number or truth value is a level of the log. -/
theorem reprint_of_mem_logLevels {text : String} (h : (reprint text).toLower ∈ logLevels) : reprint text = text := by
  obtain heq | ⟨hword | ⟨c, hc, hdigit⟩, -⟩ := reprint_cases text
  · exact heq
  · have hwords : ["true", "false", "NaN", "inf", "-inf"].all (fun word => word.toLower ∉ logLevels) = true := by
      decide +kernel
    exact absurd h (of_decide_eq_true (List.all_eq_true.1 hwords _ hword))
  · have hlevels : logLevels.all (fun level => level.toList.all (!·.isDigit)) = true := by decide +kernel
    have hlower : c.toLower = c := toLower_of_isDigit hdigit
    have hmem : c ∈ (reprint text).toLower.toList := by
      rw [toList_toLower]
      exact List.mem_map.2 ⟨c, hc, hlower⟩
    have hnot := List.all_eq_true.1 (List.all_eq_true.1 hlevels _ h) c hmem
    rw [hdigit] at hnot
    cases hnot

/-- No number or truth value is an address with a port. -/
theorem reprint_of_isSocketAddress {text : String} (h : Net.isSocketAddress (reprint text) = true) :
    reprint text = text := by
  unfold Net.isSocketAddress at h
  split at h
  · rename_i rest hrest
    have hmem : '[' ∈ (reprint text).toList := by
      rw [hrest]
      exact List.mem_cons_self ..
    exact reprint_eq_of_mem hmem rfl
  · split at h
    · rename_i port hport
      have hmem : ':' ∈ (reprint text).toList.dropWhile (· ≠ ':') := by
        rw [hport]
        exact List.mem_cons_self ..
      exact reprint_eq_of_mem ((List.dropWhile_sublist _).subset hmem) rfl
    · cases h

/-- No number or truth value is a URL. -/
theorem reprint_of_parse? {text : String} {u : Url} (h : Url.parse? (reprint text) = some u) : reprint text = text := by
  obtain ⟨rest, hsplit⟩ := Url.splitScheme_of_parse? h
  obtain ⟨c, name, hcleaned, -⟩ := Url.splitScheme_eq_some_iff.1 hsplit
  have hmem : ':' ∈ Url.cleaned (reprint text) := by
    rw [hcleaned]
    exact List.mem_append_right _ (List.mem_cons_self ..)
  rw [Url.cleaned_eq] at hmem
  have hkept := (List.mem_filter.1 hmem).1
  have htrimmed := (List.rdropWhile_prefix Url.isEdge _).subset hkept
  exact reprint_eq_of_mem ((List.dropWhile_sublist _).subset htrimmed) rfl

/-! ### The names of variables -/

theorem settingName?_eq (name : String) :
    settingName? name =
      if namePrefix.isPrefixOf (name.toList.map Char.toLower) then
        some (String.ofList (dotted ((name.toList.map Char.toLower).drop namePrefix.length)))
      else none := by
  rw [settingName?, toList_toLower]

end Environment

namespace Setting

variable {type : SettingType}

/-- The variable for a setting. -/
def variableName (x : Setting type) : String := "SCHEDULER_" ++ x.sectionName.toUpper ++ "__" ++ x.key.toUpper

/-- Whether a variable is for a setting, a part of it or something that holds it. -/
def concerns (x : Setting type) (name : String) : Bool :=
  (Environment.settingName? name).any fun path => DocumentStep.touches x.sectionName x.key (DocumentStep.ofName path)

/-- A setting has a variable of its own, behind which no other is for it. -/
def IsGiven (x : Setting type) (environment : List (String × String)) (text : String) : Prop :=
  ∃ before after, environment = before ++ (x.variableName, text) :: after ∧ ∀ later ∈ after, x.concerns later.1 = false

theorem settingName?_variableName (x : Setting type) :
    ∃ path, Environment.settingName? x.variableName = some path ∧
      DocumentStep.ofName path = [.member x.sectionName, .member x.key] := by
  have hname : Environment.namePrefix.isPrefixOf (x.variableName.toList.map Char.toLower) = true ∧
      Environment.dotted ((x.variableName.toList.map Char.toLower).drop Environment.namePrefix.length) =
        x.sectionName.toList ++ '.' :: x.key.toList := by
    simp only [variableName, String.toList_append, Environment.toList_toUpper, List.map_append, List.map_map]
    cases x <;> decide +kernel
  refine ⟨String.ofList (x.sectionName.toList ++ '.' :: x.key.toList), ?_, ?_⟩
  · rw [Environment.settingName?_eq, if_pos hname.1, hname.2]
  · rw [DocumentStep.ofName, String.toList_ofList]
    cases x <;> decide +kernel

theorem touches_of_not_concerns {x : Setting type} {environment : List (String × String)}
    (h : ∀ entry ∈ environment, x.concerns entry.1 = false) :
    ∀ entry ∈ Environment.source environment,
      DocumentStep.touches x.sectionName x.key (DocumentStep.ofName entry.1) = false := by
  intro entry hentry
  obtain ⟨⟨name, text⟩, hmem, hpath⟩ := List.mem_filterMap.1 hentry
  obtain ⟨path, hname, rfl⟩ := Option.map_eq_some_iff.1 hpath
  have hconcerns := h _ hmem
  rw [concerns, hname] at hconcerns
  exact hconcerns

/-- The value of a setting that is given by a variable. -/
theorem value?_of_isGiven {x : Setting type} {environment : List (String × String)} {text : String}
    (h : x.IsGiven environment text) (below : Document) :
    (below.layOver (Environment.source environment)).value? x.sectionName x.key = some (Environment.value text) := by
  obtain ⟨before, after, rfl, hafter⟩ := h
  obtain ⟨path, hname, hpath⟩ := x.settingName?_variableName
  have hsource : Environment.source (before ++ (x.variableName, text) :: after) =
      Environment.source before ++ (path, Environment.value text) :: Environment.source after := by
    unfold Environment.source
    have hown : (Environment.settingName? x.variableName).map (·, Environment.value text) =
        some (path, Environment.value text) := by
      rw [hname]
      rfl
    rw [List.filterMap_append]
    exact congrArg _ (List.filterMap_cons_some hown)
  rw [hsource]
  exact Document.value?_layOver_of_own hpath (Environment.value_ne_table text) (touches_of_not_concerns hafter) _ _

/-- Every default is the setting that its own document gives. -/
theorem exists_value?_default (x : Setting type) :
    ∃ value, ({} : Settings).toDocument.value? x.sectionName x.key = some value ∧
      (∀ members, value ≠ .table members) ∧ x.read .lenient value = some (x.get {}) := by
  cases x <;> exact ⟨_, rfl, nofun, rfl⟩

theorem read_text (rules : ReadingRules) (x : Setting .text) (value : Document) :
    x.read rules value = rules.text value := by
  cases x <;> rfl

theorem read_optionalText {rules : ReadingRules} {value : Document} (hvalue : value ≠ .null) :
    durationServiceUrl.read rules value = (rules.text value).map some := by
  cases value with
  | null => exact absurd rfl hvalue
  | _ => rfl

end Setting

/-! ### Files -/

theorem isDistinct_of_fileSource {entry : Option FileEntry} {source : List (String × Document)}
    (h : fileSource entry = .ok source) : (Document.table source).IsDistinct := by
  unfold fileSource at h
  split at h
  · cases h
    exact .table List.nodup_nil nofun
  · cases h
  · split at h
    · rename_i text document hdocument
      cases h
      obtain ⟨members, rfl, hdistinct⟩ := Toml.isDistinct_of_document? (Option.filter_eq_some_iff.1 hdocument).1
      exact hdistinct
    · cases h

/-! ### Loading -/

theorem Settings.of_load {files : String → Option FileEntry} {environment : List (String × String)}
    {path : Option String} {s : Settings} (h : Settings.load files environment path = .ok s) :
    ∃ entry source, chosenFile files path = .ok entry ∧ fileSource entry = .ok source ∧
      ReadingRules.lenient.settings?
        ((({} : Settings).toDocument.layOver source).layOver (Environment.source environment)) = some s ∧
      s.validate = .ok () := by
  unfold Settings.load at h
  cases hchosen : chosenFile files path with
  | error fault =>
    rw [hchosen] at h
    cases h
  | ok entry =>
    cases hsource : fileSource entry with
    | error fault =>
      simp only [hchosen, hsource, bind, Except.bind] at h
      cases h
    | ok source =>
      simp only [hchosen, hsource, bind, Except.bind] at h
      refine ⟨entry, source, rfl, hsource, ?_⟩
      split at h
      · cases h
      · rename_i settings hsettings
        split at h
        · cases h
        · rename_i hvalid
          cases h
          exact ⟨hsettings, hvalid⟩

namespace Setting

/-- A setting that a file gives, which names its sections plainly and writes this one as a table; otherwise the default
counts. -/
theorem read_of_file {source : List (String × Document)} (hdistinct : (Document.table source).IsDistinct)
    (hplain : ∀ entry ∈ source, DocumentStep.IsPlain entry.1) {type : SettingType} {x : Setting type}
    (htable : ∀ value, source.lookup x.sectionName = some value → ∃ members, value = .table members) {s : Settings}
    {document : Document} (hread : ReadingRules.lenient.settings? document = some s)
    (hdocument : document.value? x.sectionName x.key =
      (({} : Settings).toDocument.layOver source).value? x.sectionName x.key) :
    match (Document.table source).value? x.sectionName x.key with
    | some value => x.read .lenient value = some (x.get s)
    | none => x.get s = x.get {} := by
  obtain ⟨default, hdefault, hnot, hreadDefault⟩ := x.exists_value?_default
  obtain ⟨old, hold, hkey⟩ : ∃ old, ({} : Settings).toDocument.get? x.sectionName = some (.table old) ∧
      old.lookup x.key = some default := by
    obtain ⟨old, hold, hkey⟩ := Option.bind_eq_some_iff.1 hdefault
    cases old with
    | table old => exact ⟨old, hold, hkey⟩
    | _ => cases hkey
  cases hdistinct with
  | table hnodup hmembers =>
    have hsection : ∀ value, source.lookup x.sectionName = some value → ∃ members, value = .table members ∧
        (members.map (·.1)).Nodup := by
      intro value hvalue
      obtain ⟨members, rfl⟩ := htable value hvalue
      cases hmembers _ (mem_of_lookup_eq_some hvalue) with
      | table hinner _ => exact ⟨members, rfl, hinner⟩
    rw [Document.value?_layOver_of_plain hplain hnodup hsection hold, hkey] at hdocument
    cases hvalue : (Document.table source).value? x.sectionName x.key with
    | none =>
      rw [hvalue] at hdocument
      have hsame := x.read_of_settings? hread hdocument
      rw [hreadDefault] at hsame
      exact (Option.some.inj hsame).symm
    | some value =>
      rw [hvalue] at hdocument
      dsimp only at hdocument
      rw [Document.overlay_of_not_table fun members _ h _ => hnot members h] at hdocument
      exact x.read_of_settings? hread hdocument

/-- Whether the text of a setting is checked for more than not being blank. -/
def IsChecked (s : Settings) : Setting .text → Prop
  | queueUrl => s.messageQueue.kind = .rabbitmq
  | logLevel => True
  | metricsBindAddress => s.observability.metricsEnabled = true
  | heartbeatQueue | workQueue | responseQueue => False

/-- A text that passes its check is no number and no truth value. -/
theorem reprint_of_isChecked {s : Settings} (hvalid : s.validate = .ok ()) {x : Setting .text}
    (hchecked : x.IsChecked s) {text : String} (hget : x.get s = Environment.reprint text) :
    Environment.reprint text = text := by
  obtain ⟨hqueue, -, -, hobservability⟩ := Settings.validate_eq_ok_iff.1 hvalid
  obtain ⟨hlevel, haddress⟩ := ObservabilitySettings.validate_eq_ok_iff.1 hobservability
  cases x with
  | queueUrl =>
    obtain ⟨-, u, hparse, -⟩ := Validation.url_eq_ok_iff.1 ((QueueSettings.validate_eq_ok_iff.1 hqueue).1 hchecked)
    rw [show s.messageQueue.url = _ from hget] at hparse
    exact Environment.reprint_of_parse? hparse
  | logLevel =>
    rw [show s.observability.logLevel = _ from hget] at hlevel
    exact Environment.reprint_of_mem_logLevels hlevel
  | metricsBindAddress =>
    have hsocket := (haddress hchecked).2
    rw [show s.observability.metricsBindAddress = _ from hget] at hsocket
    exact Environment.reprint_of_isSocketAddress hsocket
  | heartbeatQueue | workQueue | responseQueue => exact hchecked.elim

end Setting

/-- Settings that were loaded.  A text that has a variable is what the text of the variable is printed as; if it is
checked for its form, and for the address of durations, that is the text itself.  A setting that no variable is for has
the value of the file, or the default if the file does not give it. -/
theorem Settings.load_spec {files : String → Option FileEntry} {environment : List (String × String)}
    {path : Option String} {s : Settings} (hload : Settings.load files environment path = .ok s) :
    (∀ (x : Setting .text) text, x.IsGiven environment text →
      x.get s = Environment.reprint text ∧ (x.IsChecked s → x.get s = text)) ∧
    (∀ text, Setting.durationServiceUrl.IsGiven environment text → s.lookup.durationServiceUrl = some text) ∧
    ∃ entry source, chosenFile files path = .ok entry ∧ fileSource entry = .ok source ∧
      ((∀ entry ∈ source, DocumentStep.IsPlain entry.1) → ∀ {type : SettingType} (x : Setting type),
        (∀ value, source.lookup x.sectionName = some value → ∃ members, value = .table members) →
        (∀ entry ∈ environment, x.concerns entry.1 = false) →
        match (Document.table source).value? x.sectionName x.key with
        | some value => x.read .lenient value = some (x.get s)
        | none => x.get s = x.get {}) := by
  obtain ⟨entry, source, hentry, hsource, hread, hvalid⟩ := Settings.of_load hload
  refine ⟨fun x text hgiven => ?_, fun text hgiven => ?_, entry, source, hentry, hsource,
    fun hplain _ x htable hnone => ?_⟩
  · have hget := x.read_of_settings? hread (Setting.value?_of_isGiven hgiven _)
    rw [Setting.read_text] at hget
    have hsame : x.get s = Environment.reprint text :=
      (Option.some.inj ((Environment.lenientText_value text).symm.trans hget)).symm
    exact ⟨hsame, fun hchecked => hsame.trans (Setting.reprint_of_isChecked hvalid hchecked hsame)⟩
  · have hget := Setting.durationServiceUrl.read_of_settings? hread (Setting.value?_of_isGiven hgiven _)
    have hsame : s.lookup.durationServiceUrl = some (Environment.reprint text) := by
      rw [Setting.read_optionalText (Environment.value_ne_null text)] at hget
      change (ReadingRules.lenientText (Environment.value text)).map some = _ at hget
      rw [Environment.lenientText_value] at hget
      exact (Option.some.inj hget).symm
    obtain ⟨-, -, hlookup, -⟩ := Settings.validate_eq_ok_iff.1 hvalid
    obtain ⟨-, u, hparse, -⟩ :=
      Validation.url_eq_ok_iff.1 ((LookupSettings.validate_eq_ok_iff.1 hlookup).1 _ hsame)
    rw [hsame, Environment.reprint_of_parse? hparse]
  · have hdocument := Document.value?_layOver_of_not_touches (Setting.touches_of_not_concerns hnone)
      (({} : Settings).toDocument.layOver source)
    exact Setting.read_of_file (isDistinct_of_fileSource hsource) hplain htable hread hdocument

/-- A name of a queue that reads as a number, in the environment. -/
def numberedQueue : List (String × String) := [(Setting.workQueue.variableName, "007")]

theorem isGiven_numberedQueue : Setting.workQueue.IsGiven numberedQueue "007" := ⟨[], [], rfl, List.forall_mem_nil _⟩

theorem exists_load_numberedQueue :
    ∃ s, Settings.load (fun _ => none) numberedQueue none = .ok s ∧ s.messageQueue.workQueue = "7" := by
  have hread : (Settings.load (fun _ => none) numberedQueue none).toOption.map (·.messageQueue.workQueue) =
      some "7" := by decide +kernel
  cases hload : Settings.load (fun _ => none) numberedQueue none with
  | ok s =>
    rw [hload] at hread
    exact ⟨s, rfl, Option.some.inj hread⟩
  | error fault =>
    rw [hload] at hread
    cases hread

theorem reprint_numberedQueue : Environment.reprint "007" = "7" := by decide +kernel

/-- The queue gets the number as its name, and the others keep theirs. -/
theorem Settings.load_spec_numberedQueue :
    ∃ s, Settings.load (fun _ => none) numberedQueue none = .ok s ∧ s.messageQueue.workQueue = "7" ∧
      s.messageQueue.responseQueue = "dispatcher_responses" := by
  obtain ⟨s, hload, -⟩ := exists_load_numberedQueue
  obtain ⟨hgiven, -, entry, source, hentry, hsource, hother⟩ := Settings.load_spec hload
  have hwork := (hgiven .workQueue "007" isGiven_numberedQueue).1
  rw [reprint_numberedQueue] at hwork
  cases hentry
  cases hsource
  have hconcerns : ∀ entry ∈ numberedQueue, Setting.responseQueue.concerns entry.1 = false := by decide +kernel
  exact ⟨s, hload, hwork, hother (List.forall_mem_nil _) .responseQueue nofun hconcerns⟩

/-- A variable is not always taken as it stands. -/
theorem Settings.not_forall_load_verbatim :
    ¬ ∀ (files : String → Option FileEntry) (environment : List (String × String)) (path : Option String)
      (s : Settings), Settings.load files environment path = .ok s →
        ∀ (x : Setting .text) text, x.IsGiven environment text → x.get s = text := by
  intro hall
  obtain ⟨s, hload, hseven⟩ := exists_load_numberedQueue
  have hverbatim : s.messageQueue.workQueue = "007" := hall _ _ _ s hload .workQueue "007" isGiven_numberedQueue
  rw [hseven] at hverbatim
  exact absurd hverbatim (by decide)

end SpeechDispatch
