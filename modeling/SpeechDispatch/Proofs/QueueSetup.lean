import SpeechDispatch.Proofs.UrlText
import SpeechDispatch.Proofs.Validation
import SpeechDispatch.Queue.Setup

/-!
# The two checks of a queue's settings

The settings of a queue are validated when they are loaded, and checked again when the queue is made.  Validation reads
the address as a URL, whose scheme counts in any letters and behind any blanks; the second check looks at how its text
begins.  So what validation accepts is made into a queue only if the text has its scheme in small letters, with two
slashes after it, at its very beginning (`checkSetup_of_validate`).
-/

namespace SpeechDispatch

/-- The scheme of a URL whose text begins with a scheme, a colon and a slash. -/
theorem Url.scheme_of_parse? {text : String} {u : Url} (h : parse? text = some u) (c : Char) (name : List Char)
    {rest : List Char} (htext : text.toList = c :: name ++ ':' :: '/' :: rest) (halpha : c.isAlpha = true)
    (hname : (c :: name).all isSchemeChar = true)
    (hkept : ((c :: name ++ [':']).dropWhile isEdge).filter isKept = c :: name ++ [':']) :
    u.scheme = String.ofList ((c :: name).map Char.toLower) := by
  obtain ⟨after, hsplit⟩ := splitScheme_of_parse? h
  have hfront : text.toList = (c :: name ++ [':']) ++ '/' :: rest := by simp [htext]
  have hclean : cleaned text = c :: name ++ ':' :: '/' :: (rest.rdropWhile isEdge).filter isKept := by
    rw [cleaned_append_mark (by decide) hfront, hkept]
    simp
  rw [hclean, splitScheme_append halpha (List.all_eq_true.1 hname)] at hsplit
  exact (Prod.mk.inj (Option.some.inj hsplit)).1.symm

namespace QueueSettings

/-- The text begins with the scheme of the URL that it writes, as the scheme is written in full. -/
def BeginsWithScheme (s : QueueSettings) : Prop :=
  ∃ u, Url.parse? s.url = some u ∧ (u.scheme ++ "://").toList <+: s.url.toList

/-- The addresses that the second check takes. -/
theorem startsWith_iff_beginsWithScheme {s : QueueSettings}
    (h : Validation.url s.url "message_queue.url" ["amqp", "amqps"] = .ok ()) :
    (s.url.startsWith "amqp://" ∨ s.url.startsWith "amqps://") ↔ s.BeginsWithScheme := by
  obtain ⟨-, u, hparse, hscheme⟩ := Validation.url_eq_ok_iff.1 h
  simp only [String.startsWith_string_iff]
  constructor
  · rintro (⟨rest, hrest⟩ | ⟨rest, hrest⟩)
    · have hu : u.scheme = "amqp" := Url.scheme_of_parse? hparse 'a' ['m', 'q', 'p'] (by simpa using hrest.symm)
        (by decide) (by decide) (by decide)
      exact ⟨u, hparse, rest, by rw [hu]; exact hrest⟩
    · have hu : u.scheme = "amqps" := Url.scheme_of_parse? hparse 'a' ['m', 'q', 'p', 's'] (by simpa using hrest.symm)
        (by decide) (by decide) (by decide)
      exact ⟨u, hparse, rest, by rw [hu]; exact hrest⟩
  · rintro ⟨v, hv, hprefix⟩
    obtain rfl := Option.some.inj (hparse.symm.trans hv)
    obtain hu | hu : u.scheme = "amqp" ∨ u.scheme = "amqps" := by simpa using hscheme
    · rw [hu] at hprefix
      exact .inl hprefix
    · rw [hu] at hprefix
      exact .inr hprefix

/-- Nothing but the beginning of its address keeps a queue with validated settings from being made. -/
theorem checkSetup_eq {s : QueueSettings} (h : s.validate = .ok ()) :
    s.checkSetup =
      if s.kind = .rabbitmq ∧ ¬ (s.url.startsWith "amqp://" ∨ s.url.startsWith "amqps://") then
        .error (.configuration .foreignScheme)
      else .ok () := by
  obtain ⟨hurl, hbeat, hwork, hresponse, -⟩ := validate_eq_ok_iff.1 h
  have hnames : s.queueNames.any isBlank = false := by simp [queueNames, hbeat, hwork, hresponse]
  have hgiven : ¬ (s.kind = .rabbitmq ∧ s.url.isEmpty = true) := by
    rintro ⟨hkind, hempty⟩
    obtain ⟨hblank, -⟩ := Validation.url_eq_ok_iff.1 (hurl hkind)
    rw [String.isEmpty_iff.1 hempty] at hblank
    exact absurd hblank (by decide)
  rw [checkSetup, if_neg hgiven, hnames]
  rfl

/-- Settings that validation accepts pass the second check if and only if they are for a queue in memory, or their
address begins with its scheme.  The others fail as if the scheme were foreign, which it is not. -/
theorem checkSetup_of_validate {s : QueueSettings} (h : s.validate = .ok ()) :
    (s.checkSetup = .ok () ↔ s.kind = .inMemory ∨ s.BeginsWithScheme) ∧
    (s.checkSetup ≠ .ok () → s.checkSetup = .error (.configuration .foreignScheme) ∧ s.kind = .rabbitmq ∧
      ∃ u, Url.parse? s.url = some u ∧ u.scheme ∈ ["amqp", "amqps"]) := by
  have hcheck := checkSetup_eq h
  obtain ⟨hurl, -⟩ := validate_eq_ok_iff.1 h
  cases hkind : s.kind with
  | inMemory =>
    have hok : s.checkSetup = .ok () := by simpa [hkind] using hcheck
    exact ⟨iff_of_true hok (.inl rfl), fun hne => absurd hok hne⟩
  | rabbitmq =>
    have hstarts := startsWith_iff_beginsWithScheme (hurl hkind)
    by_cases hbegins : s.BeginsWithScheme
    · have hok : s.checkSetup = .ok () := by rw [hcheck, if_neg fun hboth => hboth.2 (hstarts.2 hbegins)]
      exact ⟨iff_of_true hok (.inr hbegins), fun hne => absurd hok hne⟩
    · have herror : s.checkSetup = .error (.configuration .foreignScheme) := by
        rw [hcheck, if_pos ⟨hkind, fun hs => hbegins (hstarts.1 hs)⟩]
      refine ⟨iff_of_false (by simp [herror]) (by simp [hbegins]), fun _ => ⟨herror, rfl, ?_⟩⟩
      exact (Validation.url_eq_ok_iff.1 (hurl hkind)).2

/-- Capitals are enough to fail. -/
theorem checkSetup_of_validate_capitals :
    ({ url := "AMQP://localhost" } : QueueSettings).validate = .ok () ∧
    ¬ ({ url := "AMQP://localhost" } : QueueSettings).BeginsWithScheme ∧
    ({ url := "AMQP://localhost" } : QueueSettings).checkSetup = .error (.configuration .foreignScheme) := by
  have hvalid : ({ url := "AMQP://localhost" } : QueueSettings).validate = .ok () := rfl
  have hparse : Url.parse? "AMQP://localhost" = some { scheme := "amqp", host := some (.name "localhost") } := by decide
  have hbegins : ¬ ({ url := "AMQP://localhost" } : QueueSettings).BeginsWithScheme := by
    rintro ⟨u, hu, hprefix⟩
    obtain rfl := Option.some.inj (hparse.symm.trans hu)
    revert hprefix
    decide
  obtain ⟨hiff, hfault⟩ := checkSetup_of_validate hvalid
  refine ⟨hvalid, hbegins, (hfault fun hok => ?_).1⟩
  exact (hiff.1 hok).elim nofun hbegins

/-- Not all settings that validation accepts pass the second check. -/
theorem not_forall_checkSetup_of_validate : ¬ ∀ s : QueueSettings, s.validate = .ok () → s.checkSetup = .ok () := by
  intro hall
  have hok := hall { url := "AMQP://localhost:5672/%2f" } rfl
  rw [checkSetup_eq rfl, if_pos ⟨rfl, by decide +kernel⟩] at hok
  exact nomatch hok

end QueueSettings

end SpeechDispatch
