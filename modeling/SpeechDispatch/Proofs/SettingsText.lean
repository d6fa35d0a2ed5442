import SpeechDispatch.Config.Source
import SpeechDispatch.Config.Text
import SpeechDispatch.Proofs.TomlBuilding
import SpeechDispatch.Proofs.TomlStatements
import SpeechDispatch.Proofs.Validation

/-!
# Settings survive being written

Valid settings are read from their own text as they are (`Settings.ofText_toText`): the statements are read as they
were written, they build the document that the settings are written as (`Settings.build?_statements`), and the settings
are read from that document (`ReadingRules.settings?_written`).
-/

namespace SpeechDispatch

open Toml

/-- The whole numbers that validation does not bound fit in the words that hold them. -/
structure Settings.FitsWidths (s : Settings) : Prop where
  prefetchCount : s.messageQueue.prefetchCount < size16
  heartbeatStaleSeconds : isInt64 s.dispatcher.heartbeatStaleSeconds = true
  sweepThresholdSeconds : isInt64 s.dispatcher.sweepThresholdSeconds = true
  maxTaskFailures : s.dispatcher.maxTaskFailures < size32

/-! ### What the statements build -/

theorem QueueSettings.assigns_statements (s : QueueSettings) : Assigns s.statements s.toDocument.members :=
  ⟨rfl, by simp [toDocument, Document.members]⟩

theorem DispatcherSettings.assigns_statements (s : DispatcherSettings) : Assigns s.statements s.toDocument.members :=
  ⟨rfl, by simp [toDocument, Document.members]⟩

theorem ObservabilitySettings.assigns_statements (s : ObservabilitySettings) :
    Assigns s.statements s.toDocument.members :=
  ⟨rfl, by simp [toDocument, Document.members]⟩

/-- The first statement opens an item for the profile. -/
theorem ProfileSettings.assigns_statements (s : ProfileSettings) : Assigns s.statements.tail s.toDocument.members :=
  ⟨rfl, by simp [toDocument, Document.members]⟩

namespace LookupSettings

/-- The values that stand before the profiles. -/
def ownEntries (s : LookupSettings) : List (String × Document) :=
  (match s.durationServiceUrl with
    | some url => [("duration_service_url", .text url)]
    | none => []) ++
  [("request_timeout_seconds", .integer s.requestTimeoutSeconds),
    ("default_duration_seconds", .float s.defaultDurationSeconds)]

/-- The section as it is written: a missing address is left out. -/
def written (s : LookupSettings) : Document :=
  .table (s.ownEntries ++ [("profiles", .list (s.profiles.map (·.toDocument)))])

/-- The statements before those on profiles. -/
def ownStatements (s : LookupSettings) : List Statement :=
  (match s.durationServiceUrl with
    | some url => [.assign ["duration_service_url"] (Toml.ofText url)]
    | none => []) ++
  [.assign ["request_timeout_seconds"] (ofNat s.requestTimeoutSeconds),
    .assign ["default_duration_seconds"] (ofFloat s.defaultDurationSeconds)]

theorem mapM_entry?_ownStatements (s : LookupSettings) : s.ownStatements.mapM entry? = some s.ownEntries := by
  unfold ownStatements ownEntries
  cases s.durationServiceUrl <;> rfl

theorem nodup_written (s : LookupSettings) : (s.written.members.map (·.1)).Nodup := by
  unfold written ownEntries
  cases s.durationServiceUrl <;> simp [Document.members]

/-- The statements of the section add a table that holds it. -/
theorem foldlM_step_statements (s : LookupSettings) {members : Members} (hnew : members.lookup "lookup" = none)
    (current : List String) :
    ∃ inner current', (.openTable ["lookup"] :: s.statements).foldlM Draft.step ⟨members, current⟩ =
        some ⟨members ++ [("lookup", .table .opened inner)], current'⟩ ∧
      Document.table (documents inner) = s.written := by
  have hnodup := s.nodup_written
  -- No profiles are one more value of the section; others are items, each with statements of its own.
  by_cases hprofiles : s.profiles = []
  · have hstatements : s.statements = s.ownStatements ++ [.assign ["profiles"] (.array [])] := by
      rw [statements, hprofiles]
      rfl
    have hentries : s.statements.mapM entry? = some s.written.members := by
      rw [hstatements, List.mapM_append, s.mapM_entry?_ownStatements, written, hprofiles]
      rfl
    refine ⟨_, _, foldlM_step_section _ _ hnew ⟨hentries, hnodup⟩ current, ?_⟩
    rw [documents_valueMembers]
    rfl
  · have hstatements : .openTable ["lookup"] :: s.statements = (.openTable ["lookup"] :: s.ownStatements) ++
        s.profiles.flatMap fun profile => .openItem ["lookup", "profiles"] :: profile.statements.tail := by
      rw [statements, if_neg (by rwa [List.isEmpty_iff])]
      rfl
    have hown : (s.ownEntries.map (·.1)).Nodup ∧ (valueMembers s.ownEntries).lookup "profiles" = none := by
      change (List.map (·.1) (s.ownEntries ++ [("profiles", _)])).Nodup at hnodup
      rw [List.map_append, List.nodup_append] at hnodup
      refine ⟨hnodup.1, ?_⟩
      rw [lookup_eq_none_iff_notMem, valueMembers, List.map_map]
      exact fun hmem => hnodup.2.2 _ hmem _ (List.mem_singleton.2 rfl) rfl
    have hsection := foldlM_step_section _ _ hnew ⟨s.mapM_entry?_ownStatements, hown.1⟩ current
    have hassigns : ∀ profile ∈ s.profiles, Assigns profile.statements.tail profile.toDocument.members :=
      fun profile _ => profile.assigns_statements
    obtain ⟨current', hitems⟩ := foldlM_step_items hnew hown.2 hassigns [] ["lookup"]
    rw [List.append_nil] at hitems
    refine ⟨withTables (valueMembers s.ownEntries) "profiles"
      (s.profiles.map fun profile => valueMembers profile.toDocument.members).reverse, current', ?_, ?_⟩
    · rw [hstatements, List.foldlM_append, hsection]
      exact hitems
    · rw [documents_withTables hprofiles, documents_valueMembers]
      rfl

end LookupSettings

namespace Settings

/-- The settings as they are written. -/
def written (s : Settings) : Document := .table [
  ("message_queue", s.messageQueue.toDocument), ("dispatcher", s.dispatcher.toDocument),
  ("lookup", s.lookup.written), ("observability", s.observability.toDocument)]

theorem build?_statements (s : Settings) : build? s.statements = some s.written := by
  let queue : String × Node := ("message_queue", .table .opened (valueMembers s.messageQueue.toDocument.members))
  let dispatcher : String × Node := ("dispatcher", .table .opened (valueMembers s.dispatcher.toDocument.members))
  have hqueue := foldlM_step_section [] "message_queue" rfl s.messageQueue.assigns_statements []
  have hdispatcher := foldlM_step_section [queue] "dispatcher" rfl s.dispatcher.assigns_statements ["message_queue"]
  have hnew : [queue, dispatcher].lookup "lookup" = none := rfl
  obtain ⟨inner, current, hlookup, hinner⟩ := s.lookup.foldlM_step_statements hnew ["dispatcher"]
  have hobservability := foldlM_step_section [queue, dispatcher, ("lookup", .table .opened inner)] "observability" rfl
    s.observability.assigns_statements current
  have hdocuments : documents [queue, dispatcher, ("lookup", .table .opened inner),
        ("observability", .table .opened (valueMembers s.observability.toDocument.members))] =
      [("message_queue", s.messageQueue.toDocument), ("dispatcher", s.dispatcher.toDocument),
        ("lookup", .table (documents inner)), ("observability", s.observability.toDocument)] := by
    rw [documents_cons_table, documents_cons_table, documents_cons_table, documents_cons_table, documents,
      documents_valueMembers, documents_valueMembers, documents_valueMembers]
    rfl
  have hbuilt : s.statements.foldlM Draft.step {} = some ⟨[queue, dispatcher, ("lookup", .table .opened inner),
      ("observability", .table .opened (valueMembers s.observability.toDocument.members))], ["observability"]⟩ := by
    rw [statements, List.foldlM_append, List.foldlM_append, List.foldlM_append, hqueue]
    change ((List.foldlM Draft.step ⟨[queue], _⟩ _).bind _).bind _ = _
    rw [hdispatcher]
    change (List.foldlM Draft.step ⟨[queue, dispatcher], _⟩ _).bind _ = _
    rw [hlookup]
    exact hobservability
  rw [build?, hbuilt, Option.map_some, hdocuments, hinner]
  rfl

end Settings

/-! ### What is read from the document -/

namespace ReadingRules

theorem natural_toml {limit n : Nat} (h : n ≤ limit) : toml.natural limit (.integer n) = some n := by
  change strictNatural limit (.integer n) = some n
  rw [strictNatural, if_pos ⟨Int.natCast_nonneg n, Int.ofNat_le.2 h⟩, Int.toNat_natCast]

theorem integer_toml {n : Int} (h : isInt64 n = true) : toml.integer (.integer n) = some n := if_pos h

/-- A time of an hour at most. -/
theorem natural64_toml {n : Nat} (h : n ≤ 3600) : toml.natural64 (.integer n) = some n :=
  natural_toml (h.trans (by decide))

theorem queueSettings?_toDocument {s : QueueSettings} (hprefetch : s.prefetchCount < size16)
    (htimeout : s.connectionTimeoutSeconds ≤ 3600) : toml.queueSettings? s.toDocument = some s := by
  have hkind : (toml.choice (.text s.kind.word)).bind QueueKind.ofWord? = some s.kind := by cases s.kind <;> rfl
  change (((toml.choice (.text s.kind.word)).bind QueueKind.ofWord?).bind fun kind =>
    (toml.natural (size16 - 1) (.integer s.prefetchCount)).bind fun prefetchCount =>
      (toml.natural64 (.integer s.connectionTimeoutSeconds)).bind fun connectionTimeoutSeconds =>
        some { s with kind, prefetchCount, connectionTimeoutSeconds }) = some s
  rw [hkind, natural_toml (Nat.le_sub_one_of_lt hprefetch), natural64_toml htimeout]
  rfl

theorem dispatcherSettings?_toDocument {s : DispatcherSettings} (hstale : isInt64 s.heartbeatStaleSeconds = true)
    (hthreshold : isInt64 s.sweepThresholdSeconds = true) (hfailures : s.maxTaskFailures < size32)
    (hinterval : s.sweepIntervalSeconds ≤ 3600) (hpublish : s.publishTimeoutSeconds ≤ 3600) :
    toml.dispatcherSettings? s.toDocument = some s := by
  change ((toml.integer (.integer s.heartbeatStaleSeconds)).bind fun heartbeatStaleSeconds =>
    (toml.natural64 (.integer s.sweepIntervalSeconds)).bind fun sweepIntervalSeconds =>
      (toml.integer (.integer s.sweepThresholdSeconds)).bind fun sweepThresholdSeconds =>
        (toml.natural (size32 - 1) (.integer s.maxTaskFailures)).bind fun maxTaskFailures =>
          (toml.natural64 (.integer s.publishTimeoutSeconds)).bind fun publishTimeoutSeconds =>
            some { s with heartbeatStaleSeconds, sweepIntervalSeconds, sweepThresholdSeconds, maxTaskFailures,
                          publishTimeoutSeconds }) = some s
  rw [integer_toml hstale, natural64_toml hinterval, integer_toml hthreshold,
    natural_toml (Nat.le_sub_one_of_lt hfailures), natural64_toml hpublish]
  rfl

theorem profileSettings?_toDocument (s : ProfileSettings) : toml.profileSettings? s.toDocument = some s := rfl

theorem lookupSettings?_written {s : LookupSettings} (htimeout : s.requestTimeoutSeconds ≤ 3600) :
    toml.lookupSettings? s.written = some s := by
  obtain ⟨url, timeout, duration, profiles⟩ := s
  have hprofiles : (profiles.map (·.toDocument)).mapM toml.profileSettings? = some profiles := by
    rw [List.mapM_map, funext (f := toml.profileSettings? ∘ _) profileSettings?_toDocument]
    exact List.mapM_pure.trans (congrArg some (List.map_id _))
  have hread : ∀ url, ((toml.natural64 (.integer timeout)).bind fun timeout =>
      ((profiles.map (·.toDocument)).mapM toml.profileSettings?).bind fun profiles =>
        some (LookupSettings.mk url timeout duration profiles)) = some ⟨url, timeout, duration, profiles⟩ := by
    rw [natural64_toml htimeout, hprofiles]
    exact fun _ => rfl
  cases url with
  | none => exact hread none
  | some url => exact hread (some url)

theorem observabilitySettings?_toDocument (s : ObservabilitySettings) :
    toml.observabilitySettings? s.toDocument = some s := by
  have hformat : (toml.choice (.text s.logFormat.word)).bind LogFormat.ofWord? = some s.logFormat := by
    cases s.logFormat <;> rfl
  change (((toml.choice (.text s.logFormat.word)).bind LogFormat.ofWord?).bind fun logFormat =>
    some { s with logFormat }) = some s
  rw [hformat]
  rfl

/-- Valid settings are read from the document that they are written as. -/
theorem settings?_written {s : Settings} (hvalid : s.validate = .ok ()) (hwidths : s.FitsWidths) :
    toml.settings? s.written = some s := by
  obtain ⟨hqueue, hdispatcher, hlookup, -⟩ := Settings.validate_eq_ok_iff.1 hvalid
  obtain ⟨-, -, -, -, ⟨-, hconnect⟩, -⟩ := QueueSettings.validate_eq_ok_iff.1 hqueue
  obtain ⟨-, -, ⟨-, hinterval⟩, -, -, -, -, hpublish⟩ := DispatcherSettings.validate_eq_ok_iff.1 hdispatcher
  obtain ⟨-, ⟨-, hrequest⟩, -⟩ := LookupSettings.validate_eq_ok_iff.1 hlookup
  change ((toml.queueSettings? s.messageQueue.toDocument).bind fun messageQueue =>
    (toml.dispatcherSettings? s.dispatcher.toDocument).bind fun dispatcher =>
      (toml.lookupSettings? s.lookup.written).bind fun lookup =>
        (toml.observabilitySettings? s.observability.toDocument).bind fun observability =>
          some ⟨messageQueue, dispatcher, lookup, observability⟩) = some s
  rw [queueSettings?_toDocument hwidths.prefetchCount hconnect,
    dispatcherSettings?_toDocument hwidths.heartbeatStaleSeconds hwidths.sweepThresholdSeconds
      hwidths.maxTaskFailures hinterval hpublish,
    lookupSettings?_written hrequest, observabilitySettings?_toDocument]
  rfl

end ReadingRules

/-! ### How the statements are written -/

namespace Toml

theorem isPlain_ofNat {n : Nat} (h : n < size64) : (ofNat n).IsPlain := by
  change isWide n = true
  rw [size64] at h
  rw [isWide, Bool.and_eq_true, decide_eq_true_iff, decide_eq_true_iff]
  omega

theorem isPlain_integer {n : Int} (h : isInt64 n = true) : (Value.scalar (.integer n)).IsPlain := by
  change isWide n = true
  rw [isInt64, Bool.and_eq_true, decide_eq_true_iff, decide_eq_true_iff, size63] at h
  rw [isWide, Bool.and_eq_true, decide_eq_true_iff, decide_eq_true_iff]
  omega

end Toml

theorem QueueSettings.isPlain_statements {s : QueueSettings} (hprefetch : s.prefetchCount < size64)
    (htimeout : s.connectionTimeoutSeconds < size64) : ∀ t ∈ s.statements, t.IsPlain :=
  forall_isPlain rfl ⟨trivial, trivial, trivial, trivial, trivial, isPlain_ofNat hprefetch, isPlain_ofNat htimeout⟩

theorem DispatcherSettings.isPlain_statements {s : DispatcherSettings} (hstale : isInt64 s.heartbeatStaleSeconds = true)
    (hinterval : s.sweepIntervalSeconds < size64) (hthreshold : isInt64 s.sweepThresholdSeconds = true)
    (hfailures : s.maxTaskFailures < size64) (hpenalty : s.reloadPenaltySeconds.isFinite = true)
    (hcost : s.delayCostPerSecond.isFinite = true) (hpublish : s.publishTimeoutSeconds < size64) :
    ∀ t ∈ s.statements, t.IsPlain :=
  forall_isPlain rfl ⟨isPlain_integer hstale, isPlain_ofNat hinterval, isPlain_integer hthreshold,
    isPlain_ofNat hfailures, hpenalty, hcost, isPlain_ofNat hpublish⟩

theorem ProfileSettings.isPlain_statements {s : ProfileSettings} (hfactor : s.realTimeFactor.isFinite = true)
    (hload : s.loadSeconds.isFinite = true) : ∀ t ∈ s.statements, t.IsPlain :=
  forall_isPlain rfl ⟨trivial, trivial, trivial, hfactor, hload⟩

theorem LookupSettings.isPlain_statements {s : LookupSettings} (htimeout : s.requestTimeoutSeconds < size64)
    (hduration : s.defaultDurationSeconds.isFinite = true)
    (hprofiles : ∀ profile ∈ s.profiles, ∀ t ∈ profile.statements, t.IsPlain) : ∀ t ∈ s.statements, t.IsPlain := by
  have hown : ∀ t ∈ s.ownStatements, t.IsPlain := by
    unfold ownStatements
    cases s.durationServiceUrl with
    | none => exact forall_isPlain rfl ⟨isPlain_ofNat htimeout, hduration⟩
    | some url => exact forall_isPlain rfl ⟨trivial, isPlain_ofNat htimeout, hduration⟩
  unfold statements
  refine List.forall_mem_append.2 ⟨hown, ?_⟩
  split
  · exact forall_isPlain rfl trivial
  · intro t ht
    obtain ⟨profile, hprofile, ht⟩ := List.mem_flatMap.1 ht
    exact hprofiles profile hprofile t ht

theorem ObservabilitySettings.isPlain_statements (s : ObservabilitySettings) : ∀ t ∈ s.statements, t.IsPlain :=
  forall_isPlain rfl ⟨trivial, trivial, trivial, trivial⟩

namespace Settings

variable {s : Settings}

theorem isPlain_statements (hvalid : s.validate = .ok ()) (hwidths : s.FitsWidths) : ∀ t ∈ s.statements, t.IsPlain := by
  obtain ⟨hqueue, hdispatcher, hlookup, -⟩ := Settings.validate_eq_ok_iff.1 hvalid
  obtain ⟨-, -, -, -, ⟨-, hconnect⟩, -⟩ := QueueSettings.validate_eq_ok_iff.1 hqueue
  obtain ⟨-, -, ⟨-, hinterval⟩, -, ⟨hpenalty, -⟩, ⟨hcost, -⟩, -, hpublish⟩ :=
    DispatcherSettings.validate_eq_ok_iff.1 hdispatcher
  obtain ⟨-, ⟨-, hrequest⟩, ⟨hduration, -⟩, -, hprofiles, -⟩ := LookupSettings.validate_eq_ok_iff.1 hlookup
  have hwide : ∀ {n : Nat}, n ≤ 3600 → n < size64 := fun h => h.trans_lt (by decide)
  have hsection : ∀ {name : String} {statements : List Statement}, isBarePath [name] = true →
      (∀ t ∈ statements, t.IsPlain) → ∀ t ∈ .openTable [name] :: statements, t.IsPlain :=
    fun hname hplain => List.forall_mem_cons.2 ⟨isBarePath_iff.1 hname, hplain⟩
  refine List.forall_mem_append.2 ⟨List.forall_mem_append.2 ⟨List.forall_mem_append.2 ⟨?_, ?_⟩, ?_⟩, ?_⟩
  · exact hsection rfl (QueueSettings.isPlain_statements (hwidths.prefetchCount.trans (by decide)) (hwide hconnect))
  · exact hsection rfl (DispatcherSettings.isPlain_statements hwidths.heartbeatStaleSeconds (hwide hinterval)
      hwidths.sweepThresholdSeconds (hwidths.maxTaskFailures.trans (by decide)) hpenalty hcost (hwide hpublish))
  · refine hsection rfl (LookupSettings.isPlain_statements (hwide hrequest) hduration fun profile hprofile => ?_)
    obtain ⟨-, -, ⟨hfactor, -⟩, ⟨hload, -⟩⟩ := ProfileSettings.validate_eq_ok_iff.1 (hprofiles profile hprofile)
    exact profile.isPlain_statements hfactor hload
  · exact hsection rfl s.observability.isPlain_statements

theorem document?_toText (hplain : ∀ t ∈ s.statements, t.IsPlain) : document? s.toText = some s.written := by
  rw [document?, toText, statements?_write hplain, Option.bind_some, build?_statements]

/-- Valid settings are read from their own text as they are. -/
theorem ofText_toText (hvalid : s.validate = .ok ()) (hwidths : s.FitsWidths) : ofText s.toText = .ok s := by
  have hread : (document? s.toText).bind ReadingRules.toml.settings? = some s := by
    rw [document?_toText (isPlain_statements hvalid hwidths), Option.bind_some,
      ReadingRules.settings?_written hvalid hwidths]
  rw [ofText, hread]
  dsimp only
  rw [hvalid]

/-- Settings with quotes, marks and controls in texts, an address, two profiles, and small and large numbers. -/
def oddTexts : Settings where
  messageQueue := { QueueSettings.inMemory with workQueue := "\"\"\"\n\\'\x7f" }
  lookup :=
    { durationServiceUrl := some "http://localhost/"
      profiles := [⟨"größe", "it's \"so\"", 0.1, 0⟩, ⟨"[#] = ", "\tslow", 1e-3, 1e22⟩] }

theorem ofText_toText_oddTexts :
    oddTexts.validate = .ok () ∧ oddTexts.FitsWidths ∧ ofText oddTexts.toText = .ok oddTexts := by
  have hobservability : oddTexts.observability.validate = .ok () :=
    ObservabilitySettings.validate_eq_ok_iff.2 ⟨by decide +kernel, nofun⟩
  have hvalid : oddTexts.validate = .ok () := Settings.validate_eq_ok_iff.2 ⟨rfl, rfl, rfl, hobservability⟩
  have hwidths : oddTexts.FitsWidths := ⟨by decide, by decide, by decide, by decide⟩
  exact ⟨hvalid, hwidths, ofText_toText hvalid hwidths⟩

end Settings

end SpeechDispatch
