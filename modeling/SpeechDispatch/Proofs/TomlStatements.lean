import SpeechDispatch.Proofs.DecimalReading
import SpeechDispatch.Proofs.TomlTokens

/-!
# Statements are read as they were written

Statements with bare keys, and with values that are texts, truth values, whole numbers and finite doubles, or arrays
with nothing in them, are read from their text as they are (`statements?_write`).
-/

namespace SpeechDispatch.Toml

/-! ### Paths -/

/-- Keys that stand without quotes. -/
structure IsBareKey (key : String) : Prop where
  ne_nil : key.toList ≠ []
  isBare : ∀ c ∈ key.toList, isBareKeyChar c = true

/-- Paths that are written without quotes. -/
structure IsBarePath (path : List String) : Prop where
  ne_nil : path ≠ []
  isBare : ∀ key ∈ path, IsBareKey key

/-- The keys of a path are not empty, and of characters that need no quotes. -/
def isBarePath (path : List String) : Bool :=
  !path.isEmpty && path.all fun key => !key.toList.isEmpty && key.toList.all isBareKeyChar

theorem isBarePath_iff {path : List String} : isBarePath path = true ↔ IsBarePath path := by
  have hkey : ∀ key : String, (!key.toList.isEmpty && key.toList.all isBareKeyChar) = true ↔ IsBareKey key := by
    intro key
    rw [Bool.and_eq_true, Bool.not_eq_true', List.isEmpty_eq_false_iff, List.all_eq_true]
    exact ⟨fun h => ⟨h.1, h.2⟩, fun h => ⟨h.ne_nil, h.isBare⟩⟩
  rw [isBarePath, Bool.and_eq_true, Bool.not_eq_true', List.isEmpty_eq_false_iff, List.all_eq_true]
  simp only [hkey]
  exact ⟨fun h => ⟨h.1, h.2⟩, fun h => ⟨h.ne_nil, h.isBare⟩⟩

/-- The tokens of a path. -/
def pathTokens : List String → List Token
  | [] => []
  | [key] => [.word key.toList]
  | key :: next :: rest => .word key.toList :: .dot :: pathTokens (next :: rest)

theorem writes_path {path : List String} (h : IsBarePath path) {text : List Char} {tokens : List Token}
    (hnext : ∀ c, text.head? = some c → endsWord c = true) (htokens : Writes tokens text) :
    Writes (pathTokens path ++ tokens) ((".".intercalate path).toList ++ text) := by
  obtain ⟨hne, hbare⟩ := h
  induction path with
  | nil => exact absurd rfl hne
  | cons key rest ih =>
    have hkey := hbare key (List.mem_cons_self ..)
    cases rest with
    | nil =>
      rw [String.intercalate_singleton]
      exact .word hkey.ne_nil hkey.isBare hnext htokens
    | cons next rest =>
      have hrest := ih (List.cons_ne_nil _ _) fun key' hkey' => hbare key' (List.mem_cons_of_mem _ hkey')
      rw [String.intercalate_cons_cons, String.toList_append, String.toList_append, List.append_assoc, List.append_assoc]
      refine .word hkey.ne_nil hkey.isBare ?_ (.mark rfl hrest)
      rintro c hc
      cases hc
      rfl

theorem keysOf?_pathTokens {path : List String} (h : IsBarePath path) : keysOf? (pathTokens path) = some path := by
  obtain ⟨hne, hbare⟩ := h
  have hkeyOf : ∀ {key : String}, IsBareKey key → keyOf? (.word key.toList) = some key := by
    intro key hkey
    rw [keyOf?, if_pos (List.all_eq_true.2 hkey.isBare), String.ofList_toList]
  induction path with
  | nil => exact absurd rfl hne
  | cons key rest ih =>
    have hkey := hbare key (List.mem_cons_self ..)
    cases rest with
    | nil => rw [pathTokens, keysOf?, hkeyOf hkey]; rfl
    | cons next rest =>
      have hrest := ih (List.cons_ne_nil _ _) fun key' hkey' => hbare key' (List.mem_cons_of_mem _ hkey')
      rw [pathTokens, keysOf?, hkeyOf hkey, Option.bind_some, hrest]
      rfl

theorem isPathToken_of_mem_pathTokens {path : List String} {token : Token} (h : token ∈ pathTokens path) :
    isPathToken token = true ∧ token ≠ .blank := by
  induction path using pathTokens.induct with
  | case1 => cases h
  | case2 key =>
    obtain rfl := List.mem_singleton.1 h
    exact ⟨rfl, nofun⟩
  | case3 key next rest ih =>
    obtain rfl | h := List.mem_cons.1 h
    · exact ⟨rfl, nofun⟩
    obtain rfl | h := List.mem_cons.1 h
    · exact ⟨rfl, nofun⟩
    · exact ih h

/-- A path is cut off before anything that is no part of it, and blanks before that are left out. -/
theorem splitPath_pathTokens {path : List String} (h : IsBarePath path) {gap rest : List Token}
    (hgap : ∀ token ∈ gap, token = .blank) (hrest : ∀ token, rest.head? = some token → isPathToken token = false) :
    splitPath (pathTokens path ++ (gap ++ rest)) = some (path, rest) := by
  have hpass : ∀ token ∈ pathTokens path ++ gap, isPathToken token = true := by
    intro token htoken
    obtain htoken | htoken := List.mem_append.1 htoken
    · exact (isPathToken_of_mem_pathTokens htoken).1
    · rw [hgap token htoken]
      rfl
  have hkept : (pathTokens path ++ gap).filter (· ≠ .blank) = pathTokens path := by
    rw [List.filter_append, List.filter_eq_self.2 fun token htoken =>
      decide_eq_true (isPathToken_of_mem_pathTokens htoken).2, List.filter_eq_nil_iff.2 fun token htoken => by
      simp [hgap token htoken], List.append_nil]
  unfold splitPath
  rw [← List.append_assoc, takeWhile_append_of_head hrest, dropWhile_append_of_head hrest,
    List.takeWhile_eq_self_iff.2 hpass, List.dropWhile_eq_nil_iff.2 hpass, List.nil_append, hkept,
    keysOf?_pathTokens h]
  rfl

/-! ### Values -/

/-- Values that are written as they are read. -/
def Value.IsPlain : Value → Prop
  | .scalar (.text _) | .scalar (.bool _) | .array [] => True
  | .scalar (.integer n) => isWide n = true
  | .scalar (.float x) => x.isFinite = true
  | _ => False

/-- Tokens of a value at the end of a line: its text is cut into them, and they are read as the value. -/
structure Value.IsReadFrom (value : Value) (tokens : List Token) : Prop where
  writes {rest : List Token} {text : List Char} (hend : text.head? = some '\n') (h : Writes rest text) :
    Writes (tokens ++ rest) (value.write.toList ++ text)
  read (depth : Nat) (rest : List Token) :
    splitValue (depth + 2) (tokens ++ .lineEnd :: rest) = some (value, .lineEnd :: rest)
  head : ∃ first others, tokens = first :: others ∧ first ≠ .blank

/-- Words and dots up to the end of a line are read together. -/
theorem splitValue_run {chars : List Char} {run : List Token} (hrun : ∀ token ∈ run, isRunToken token = true)
    {document : Document} (h : scalarValue? (chars ++ runChars run) = some document) (depth : Nat) (rest : List Token) :
    splitValue (depth + 2) (.word chars :: run ++ .lineEnd :: rest) = some (.scalar document, .lineEnd :: rest) := by
  have hpass : ∀ token ∈ .word chars :: run, isRunToken token = true := by
    intro token htoken
    obtain rfl | htoken := List.mem_cons.1 htoken
    · rfl
    · exact hrun token htoken
  have hstop : isRunToken .lineEnd = false := rfl
  have hsplit : splitValue (depth + 2) (.word chars :: run ++ .lineEnd :: rest) =
      splitRun (.word chars :: run ++ .lineEnd :: rest) := by
    rw [List.cons_append, splitValue]
    · exact Nat.succ_ne_zero _
    all_goals
      intro _ _ _ hcons
      cases hcons
  rw [hsplit, splitRun, takeWhile_append_mark hstop, dropWhile_append_mark hstop, List.takeWhile_eq_self_iff.2 hpass,
    List.dropWhile_eq_nil_iff.2 hpass]
  change (scalarValue? (chars ++ runChars run)).map _ = _
  rw [h]
  rfl

/-- A value that is one word. -/
theorem isReadFrom_word {document : Document} (hne : (writeScalar document).toList ≠ [])
    (hbare : ∀ c ∈ (writeScalar document).toList, isBareKeyChar c = true)
    (h : scalarValue? (writeScalar document).toList = some document) :
    (Value.scalar document).IsReadFrom [.word (writeScalar document).toList] where
  writes hend hrest := by
    refine .word hne hbare (fun c hc => ?_) hrest
    rw [hend] at hc
    cases hc
    rfl
  read depth rest := by
    refine splitValue_run (List.forall_mem_nil _) ?_ depth rest
    change scalarValue? ((writeScalar document).toList ++ []) = some document
    rw [List.append_nil, h]
  head := ⟨_, _, rfl, nofun⟩

theorem isReadFrom_text (text : String) :
    (Value.scalar (.text text)).IsReadFrom [.text text.toList (quotesFor text.toList).overLines] where
  writes hend hrest := by
    have hwrite : (Value.scalar (.text text)).write.toList = quotedChars text.toList := String.toList_ofList
    rw [hwrite]
    exact .text _ (by rw [hend]; decide) (by rw [hend]; decide) hrest
  read depth rest := by
    rw [List.singleton_append, splitValue, String.ofList_toList]
    exact Nat.succ_ne_zero _
  head := ⟨_, _, rfl, nofun⟩

theorem isReadFrom_emptyArray : (Value.array []).IsReadFrom [.opening .square, .closing .square] where
  writes _ hrest := .mark rfl (.mark rfl hrest)
  read depth rest := by
    change splitValue (depth + 2) (.opening .square :: .closing .square :: .lineEnd :: rest) = _
    rw [splitValue]
    change (splitItems (depth + 1) [] (.closing .square :: .lineEnd :: rest)).map _ = _
    rw [splitItems]
    · rfl
    · exact Nat.succ_ne_zero _
  head := ⟨_, _, rfl, nofun⟩

theorem isBareKeyChar_of_isDigit {c : Char} (h : c.isDigit = true) : isBareKeyChar c = true := by
  simp [isBareKeyChar, Char.isAlphanum, h]

theorem isBareKeyChar_of_mem_signChars {negative : Bool} {c : Char} (h : c ∈ signChars negative) :
    isBareKeyChar c = true := by
  cases negative with
  | true =>
    obtain rfl := List.mem_singleton.1 h
    rfl
  | false => cases h

theorem isReadFrom_integer {n : Int} (h : isWide n = true) :
    (Value.scalar (.integer n)).IsReadFrom [.word (toString n).toList] := by
  have hdigits := isWhole_toDigits n.natAbs
  refine isReadFrom_word ?_ ?_ (scalarValue?_integer h)
  · change (toString n).toList ≠ []
    rw [toList_toString]
    exact List.append_ne_nil_of_right_ne_nil _ hdigits.ne_nil
  · change ∀ c ∈ (toString n).toList, isBareKeyChar c = true
    rw [toList_toString]
    intro c hc
    obtain hc | hc := List.mem_append.1 hc
    · exact isBareKeyChar_of_mem_signChars hc
    · exact isBareKeyChar_of_isDigit (hdigits.isDigit c hc)

theorem isReadFrom_bool (b : Bool) : (Value.scalar (.bool b)).IsReadFrom [.word (toString b).toList] := by
  have hbare : (toString b).toList ≠ [] ∧ (toString b).toList.all isBareKeyChar = true := by cases b <;> decide
  exact isReadFrom_word hbare.1 (List.all_eq_true.1 hbare.2) (scalarValue?_bool b)

/-- A double is two words with a dot between them. -/
theorem exists_isReadFrom_float {x : Float} (hfinite : x.isFinite = true) :
    ∃ tokens, (Value.scalar (.float x)).IsReadFrom tokens := by
  obtain ⟨n, chars, hwritten, hwrite, hread⟩ := exists_write hfinite
  have hscalar := scalarValue?_of_isWrittenAs hwritten hread
  have hsign : ∀ c ∈ signChars (decide (size63 ≤ x.toBits.toNat)), isBareKeyChar c = true :=
    fun c => isBareKeyChar_of_mem_signChars
  obtain ⟨whole, fraction, -, rfl, hwhole, hne, hfraction, -⟩ := hwritten
  generalize signChars (decide (size63 ≤ x.toBits.toNat)) = sign at *
  have hfirst : ∀ c ∈ sign ++ whole, isBareKeyChar c = true := by
    intro c hc
    obtain hc | hc := List.mem_append.1 hc
    · exact hsign c hc
    · exact isBareKeyChar_of_isDigit (hwhole.isDigit c hc)
  refine ⟨[.word (sign ++ whole), .dot, .word fraction], ?_, fun depth rest => ?_, ⟨_, _, rfl, nofun⟩⟩
  · intro rest text hend hrest
    have hvalue : (Value.scalar (.float x)).write.toList = sign ++ (whole ++ '.' :: fraction) := hwrite
    have hdot : Writes (.dot :: .word fraction :: rest) ('.' :: (fraction ++ text)) := by
      refine .mark rfl (.word hne (fun c hc => isBareKeyChar_of_isDigit (hfraction c hc)) (fun c hc => ?_) hrest)
      rw [hend] at hc
      cases hc
      rfl
    rw [hvalue, ← List.append_assoc, List.append_assoc]
    refine .word (List.append_ne_nil_of_right_ne_nil _ hwhole.ne_nil) hfirst (fun c hc => ?_) hdot
    cases hc
    rfl
  · refine splitValue_run (List.forall_mem_cons.2 ⟨rfl, List.forall_mem_singleton.2 rfl⟩) ?_ depth rest
    have hrun : runChars [.dot, .word fraction] = '.' :: fraction := by
      rw [runChars, List.flatMap_cons, List.flatMap_singleton]
      rfl
    rw [hrun, List.append_assoc, hscalar]

theorem Value.IsPlain.exists_isReadFrom {value : Value} (h : value.IsPlain) : ∃ tokens, value.IsReadFrom tokens := by
  match value, h with
  | .scalar (.text text), _ => exact ⟨_, isReadFrom_text text⟩
  | .scalar (.bool b), _ => exact ⟨_, isReadFrom_bool b⟩
  | .array [], _ => exact ⟨_, isReadFrom_emptyArray⟩
  | .scalar (.integer n), h => exact ⟨_, isReadFrom_integer h⟩
  | .scalar (.float x), h => exact exists_isReadFrom_float h

/-! ### Statements -/

/-- Statements with bare keys and plain values. -/
def Statement.IsPlain : Statement → Prop
  | .assign path value => IsBarePath path ∧ value.IsPlain
  | .openTable path | .openItem path => IsBarePath path

def Statement.path : Statement → List String
  | .assign path _ | .openTable path | .openItem path => path

def Statement.HasPlainValue : Statement → Prop
  | .assign _ value => value.IsPlain
  | _ => True

/-- Paths are checked together, and apart from the values. -/
theorem forall_isPlain {statements : List Statement} (hpaths : (statements.all (isBarePath ·.path)) = true)
    (hvalues : statements.Forall Statement.HasPlainValue) : ∀ t ∈ statements, t.IsPlain := by
  intro t ht
  have hpath : IsBarePath t.path := isBarePath_iff.1 (List.all_eq_true.1 hpaths t ht)
  have hvalue : t.HasPlainValue := List.forall_iff_forall_mem.1 hvalues t ht
  cases t with
  | assign => exact ⟨hpath, hvalue⟩
  | openTable | openItem => exact hpath

/-- Tokens of a statement up to the end of its line. -/
structure Statement.IsReadFrom (statement : Statement) (tokens : List Token) : Prop where
  writes {rest : List Token} {text : List Char} (h : Writes rest text) :
    Writes (tokens ++ .lineEnd :: rest) (statement.write.toList ++ text)
  read (rest : List Token) :
    splitStatement (tokens ++ .lineEnd :: rest) = some (statement, .lineEnd :: rest)
  head : ∃ first others, tokens = first :: others ∧ first ≠ .blank ∧ first ≠ .lineEnd

theorem exists_pathTokens {path : List String} (h : IsBarePath path) :
    ∃ chars others, pathTokens path = .word chars :: others := by
  match path, h with
  | [], h => exact absurd rfl h.ne_nil
  | [key], _ => exact ⟨_, _, rfl⟩
  | key :: next :: rest, _ => exact ⟨_, _, rfl⟩

/-- Only blanks are written as blanks. -/
theorem isBlank_eq_false_of_writes {first : Token} {others : List Token} (hne : first ≠ .blank) {text : List Char}
    (h : Writes (first :: others) text) {c : Char} (hc : text.head? = some c) : isBlank c = false := by
  have hnot : c ≠ ' ' ∧ c ≠ '\t' → isBlank c = false := by
    rintro ⟨hspace, htab⟩
    rw [Bool.eq_false_iff, ne_eq, isBlank_iff, not_or]
    exact ⟨hspace, htab⟩
  cases h with
  | @word chars _ _ hchars hbare =>
    obtain ⟨d, chars, rfl⟩ := List.exists_cons_of_ne_nil hchars
    have hd := hbare d (List.mem_cons_self ..)
    rw [List.cons_append, List.head?_cons] at hc
    obtain rfl := Option.some.inj hc
    exact hnot ⟨ne_of_isBareKeyChar hd (by decide), ne_of_isBareKeyChar hd (by decide)⟩
  | text chars =>
    rw [quotedChars_eq] at hc
    cases hquotes : quotesFor chars <;> rw [hquotes] at hc <;> cases hc <;> rfl
  | mark hmark =>
    cases hc
    exact hnot ⟨ne_of_mark? hmark rfl, ne_of_mark? hmark rfl⟩
  | blank => exact absurd rfl hne

theorem isReadFrom_assign {path : List String} (hpath : IsBarePath path) {value : Value} {tokens : List Token}
    (h : value.IsReadFrom tokens) :
    (Statement.assign path value).IsReadFrom (pathTokens path ++ .blank :: .equals :: .blank :: tokens) where
  writes {rest text} hrest := by
    obtain ⟨first, others, hfirst, hne⟩ := h.head
    have htext : (Statement.assign path value).write.toList ++ text =
        (".".intercalate path).toList ++ (' ' :: '=' :: ' ' :: (value.write.toList ++ '\n' :: text)) := by
      rw [Statement.write, String.toList_append, String.toList_append, String.toList_append, List.append_assoc,
        List.append_assoc, List.append_assoc]
      rfl
    have hvalue : Writes (tokens ++ .lineEnd :: rest) (value.write.toList ++ '\n' :: text) :=
      h.writes rfl (.mark rfl hrest)
    have hblank : ∀ c, (value.write.toList ++ '\n' :: text).head? = some c → isBlank c = false := by
      rw [hfirst] at hvalue
      exact fun c hc => isBlank_eq_false_of_writes hne hvalue hc
    rw [htext, List.append_assoc]
    refine writes_path hpath ?_ (.blank ?_ (.mark rfl (.blank hblank hvalue)))
    · rintro c hc
      cases hc
      rfl
    · rintro c hc
      cases hc
      rfl
  read rest := by
    obtain ⟨chars, others, hwords⟩ := exists_pathTokens hpath
    have hsplit : splitPath (pathTokens path ++ ([.blank] ++ .equals :: .blank :: (tokens ++ .lineEnd :: rest))) =
        some (path, .equals :: .blank :: (tokens ++ .lineEnd :: rest)) :=
      splitPath_pathTokens hpath (List.forall_mem_singleton.2 rfl) fun token htoken => by cases htoken; rfl
    have hskip : skipBlanks (.blank :: (tokens ++ .lineEnd :: rest)) = tokens ++ .lineEnd :: rest := by
      obtain ⟨first, after, hfirst, hne⟩ := h.head
      rw [hfirst, skipBlanks, List.dropWhile_cons_of_pos (by decide), List.cons_append,
        List.dropWhile_cons_of_neg (by simpa using hne)]
    have hvalue := h.read (tokens.length + rest.length + 1) rest
    have hlength : (Token.blank :: (tokens ++ .lineEnd :: rest)).length + 1 = tokens.length + rest.length + 1 + 2 := by
      rw [List.length_cons, List.length_append, List.length_cons]
      omega
    rw [List.append_assoc]
    change splitStatement (pathTokens path ++ ([.blank] ++ .equals :: .blank :: (tokens ++ .lineEnd :: rest))) = _
    rw [hwords] at hsplit ⊢
    rw [List.cons_append] at hsplit ⊢
    rw [splitStatement, hsplit]
    · change (splitValue ((Token.blank :: (tokens ++ .lineEnd :: rest)).length + 1) (skipBlanks _)).map _ = _
      rw [hskip, hlength, hvalue]
      rfl
    · exact nofun
    · exact nofun
  head := by
    obtain ⟨chars, others, hwords⟩ := exists_pathTokens hpath
    exact ⟨.word chars, _, by rw [hwords]; rfl, nofun, nofun⟩

/-- A path between brackets, and what closes them. -/
theorem splitPath_before_closing {path : List String} (hpath : IsBarePath path) (rest : List Token) :
    splitPath (pathTokens path ++ .closing .square :: rest) = some (path, .closing .square :: rest) :=
  splitPath_pathTokens hpath (List.forall_mem_nil _) fun token htoken => by cases htoken; rfl

theorem writes_before_closing {path : List String} (hpath : IsBarePath path) {rest : List Token} {text : List Char}
    (h : Writes rest text) :
    Writes (pathTokens path ++ .closing .square :: rest) ((".".intercalate path).toList ++ ']' :: text) :=
  writes_path hpath (fun c hc => by cases hc; rfl) (.mark rfl h)

theorem isReadFrom_openTable {path : List String} (hpath : IsBarePath path) :
    (Statement.openTable path).IsReadFrom (.opening .square :: pathTokens path ++ [.closing .square]) where
  writes {rest text} hrest := by
    have htext : (Statement.openTable path).write.toList ++ text =
        '[' :: ((".".intercalate path).toList ++ ']' :: '\n' :: text) := by
      rw [Statement.write, String.toList_append, String.toList_append, List.append_assoc, List.append_assoc]
      rfl
    rw [htext, List.append_assoc]
    exact .mark rfl (writes_before_closing hpath (.mark rfl hrest))
  read rest := by
    obtain ⟨chars, others, hwords⟩ := exists_pathTokens hpath
    have hsplit := splitPath_before_closing hpath (.lineEnd :: rest)
    rw [List.append_assoc, List.cons_append]
    change splitStatement (.opening .square :: (pathTokens path ++ .closing .square :: .lineEnd :: rest)) = _
    rw [hwords] at hsplit ⊢
    rw [List.cons_append] at hsplit ⊢
    rw [splitStatement, hsplit]
    exact nofun
  head := ⟨_, _, rfl, nofun, nofun⟩

theorem isReadFrom_openItem {path : List String} (hpath : IsBarePath path) :
    (Statement.openItem path).IsReadFrom
      (.opening .square :: .opening .square :: pathTokens path ++ [.closing .square, .closing .square]) where
  writes {rest text} hrest := by
    have htext : (Statement.openItem path).write.toList ++ text =
        '[' :: '[' :: ((".".intercalate path).toList ++ ']' :: ']' :: '\n' :: text) := by
      rw [Statement.write, String.toList_append, String.toList_append, List.append_assoc, List.append_assoc]
      rfl
    rw [htext, List.append_assoc]
    exact .mark rfl (.mark rfl (writes_before_closing hpath (.mark rfl (.mark rfl hrest))))
  read rest := by
    have hsplit := splitPath_before_closing hpath (.closing .square :: .lineEnd :: rest)
    rw [List.append_assoc, List.cons_append, List.cons_append]
    change splitStatement
      (.opening .square :: .opening .square ::
        (pathTokens path ++ .closing .square :: .closing .square :: .lineEnd :: rest)) = _
    rw [splitStatement, hsplit]
  head := ⟨_, _, rfl, nofun, nofun⟩

theorem Statement.IsPlain.exists_isReadFrom {statement : Statement} (h : statement.IsPlain) :
    ∃ tokens, statement.IsReadFrom tokens := by
  cases statement with
  | assign path value =>
    obtain ⟨tokens, htokens⟩ := h.2.exists_isReadFrom
    exact ⟨_, isReadFrom_assign h.1 htokens⟩
  | openTable path => exact ⟨_, isReadFrom_openTable h⟩
  | openItem path => exact ⟨_, isReadFrom_openItem h⟩

/-! ### All statements -/

theorem statementsAfter_lineEnd (seen : List Statement) (depth : Nat) (input : List Token) :
    statementsAfter seen depth (.lineEnd :: input) = statementsAfter seen depth input := by
  have hskip : skipLines (.lineEnd :: input) = skipLines input := List.dropWhile_cons_of_pos rfl
  cases depth <;> unfold statementsAfter <;> rw [hskip]

theorem Statement.IsReadFrom.statementsAfter_eq {statement : Statement} {tokens : List Token}
    (h : statement.IsReadFrom tokens) (seen : List Statement) (depth : Nat) (rest : List Token) :
    statementsAfter seen (depth + 1) (tokens ++ .lineEnd :: rest) = statementsAfter (statement :: seen) depth rest := by
  obtain ⟨first, others, rfl, hblank, hlineEnd⟩ := h.head
  have hskip : skipLines (first :: others ++ .lineEnd :: rest) = first :: others ++ .lineEnd :: rest := by
    rw [skipLines, List.cons_append, List.dropWhile_cons_of_neg (by simp [hblank, hlineEnd])]
  conv_lhs => unfold statementsAfter
  rw [hskip, List.cons_append]
  dsimp only
  rw [← List.cons_append, h.read rest]
  rfl

/-- A statement of a later line: the line end that sets it off, if there is one, and its own line. -/
def laterLine (statement : Statement) : List Char :=
  (if statement.isSetOff then "\n" else "").toList ++ statement.write.toList

theorem exists_laterLines {statements : List Statement} (h : ∀ s ∈ statements, s.IsPlain) :
    ∃ tokens, Writes tokens (statements.flatMap laterLine) ∧ ∀ seen depth, tokens.length ≤ depth →
      statementsAfter seen depth tokens = some (seen.reverse ++ statements) := by
  induction statements with
  | nil =>
    refine ⟨[], .nil, fun seen depth _ => ?_⟩
    cases depth <;> rw [List.append_nil] <;> rfl
  | cons statement statements ih =>
    obtain ⟨later, hlater, hlaterRead⟩ := ih fun s hs => h s (List.mem_cons_of_mem _ hs)
    obtain ⟨tokens, htokens⟩ := (h statement (List.mem_cons_self ..)).exists_isReadFrom
    have hwrites : Writes (tokens ++ .lineEnd :: later) (statement.write.toList ++ statements.flatMap laterLine) :=
      htokens.writes hlater
    have hread : ∀ seen depth, (tokens ++ .lineEnd :: later).length ≤ depth →
        statementsAfter seen depth (tokens ++ .lineEnd :: later) = some (seen.reverse ++ statement :: statements) := by
      intro seen depth hdepth
      rw [List.length_append, List.length_cons] at hdepth
      obtain ⟨depth, rfl⟩ : ∃ fewer, depth = fewer + 1 := ⟨depth - 1, by omega⟩
      rw [htokens.statementsAfter_eq, hlaterRead _ depth (by omega), List.reverse_cons, List.append_assoc]
      rfl
    cases hsetOff : statement.isSetOff with
    | false =>
      refine ⟨_, ?_, hread⟩
      rwa [List.flatMap_cons, laterLine, hsetOff]
    | true =>
      refine ⟨.lineEnd :: (tokens ++ .lineEnd :: later), ?_, fun seen depth hdepth => ?_⟩
      · rw [List.flatMap_cons, laterLine, hsetOff, List.append_assoc]
        exact .mark rfl hwrites
      · rw [statementsAfter_lineEnd]
        exact hread seen depth (Nat.le_of_succ_le hdepth)

theorem toList_write (statement : Statement) (statements : List Statement) :
    (write (statement :: statements)).toList = statement.write.toList ++ statements.flatMap laterLine := by
  have hjoin : (String.join (statements.map fun s => (if s.isSetOff then "\n" else "") ++ s.write)).toList =
      statements.flatMap laterLine := by
    rw [String.toList_join, List.flatMap_map]
    exact List.flatMap_congr fun s _ => String.toList_append
  rw [write, String.toList_append, hjoin]

/-- Statements are read as they were written. -/
theorem statements?_write {statements : List Statement} (h : ∀ s ∈ statements, s.IsPlain) :
    statements? (write statements) = some statements := by
  cases statements with
  | nil =>
    have hnone : tokens? "" = some [] := tokens?_of_writes .nil
    rw [statements?, write, hnone]
    rfl
  | cons statement statements =>
    obtain ⟨later, hlater, hlaterRead⟩ := exists_laterLines fun s hs => h s (List.mem_cons_of_mem _ hs)
    obtain ⟨tokens, htokens⟩ := (h statement (List.mem_cons_self ..)).exists_isReadFrom
    have hwrites : Writes (tokens ++ .lineEnd :: later) (write (statement :: statements)).toList := by
      rw [toList_write]
      exact htokens.writes hlater
    have hlength : (tokens ++ .lineEnd :: later).length = tokens.length + later.length + 1 := by
      rw [List.length_append, List.length_cons]
      omega
    rw [statements?, tokens?_of_writes hwrites, Option.bind_some, hlength, htokens.statementsAfter_eq,
      hlaterRead _ _ (by omega)]
    rfl

end SpeechDispatch.Toml
