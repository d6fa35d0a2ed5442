import SpeechDispatch.Lookup.Duration
import SpeechDispatch.Proofs.Messages
import SpeechDispatch.Proofs.UrlPath

/-!
# Which items have an address of their own

The address of an item is the base of the service, a slash and the id as it is.  It is read as a URL, in which the id
takes part: it can end the path, or lead out of the folder of the base, or name what is not there.  An item has an
address of its own in this folder if and only if its id has nothing that means something in a URL
(`exists_hasOwnAddress_iff`).
-/

namespace SpeechDispatch

/-! ### Texts that nothing is cut off -/

/-- Whether a text has no control or blank at its end. -/
def endsVisibly (text : List Char) : Bool := text.getLast?.all fun c => 0x20 < c.toNat

theorem rdropWhile_isEdge_eq_self_iff (text : List Char) :
    text.rdropWhile Url.isEdge = text ↔ endsVisibly text = true := by
  rw [List.rdropWhile_eq_self_iff, endsVisibly]
  cases hlast : text.getLast? with
  | none => simp [List.getLast?_eq_none_iff.1 hlast]
  | some c =>
    obtain ⟨front, rfl⟩ := List.getLast?_eq_some_iff.1 hlast
    simp [Url.isEdge]

theorem endsVisibly_of_append {front back : List Char} (h : endsVisibly (front ++ back) = true) :
    endsVisibly back = true := by
  rw [endsVisibly, List.getLast?_append] at h
  rw [endsVisibly]
  cases hlast : back.getLast? with
  | none => rfl
  | some c => simpa [hlast] using h

namespace Url

/-! ### What stands behind a folder -/

/-- What ends an authority is a slash, or would end the path too. -/
theorem startsPath_dropWhile {site : List Char} (hmarks : ∀ c ∈ site, endsPath c = false) :
    StartsPath (site.dropWhile (!endsAuthority true ·)) := by
  intro c hc
  have hstop := List.head?_dropWhile_not (!endsAuthority true ·) site
  rw [hc] at hstop
  have hends : endsAuthority true c = true := by simpa using hstop
  have hmark := hmarks c ((List.dropWhile_sublist _).subset (List.mem_of_head? hc))
  simp only [endsAuthority, endsPath, isSlash, Bool.true_and, Bool.or_eq_true, Bool.or_eq_false_iff, beq_iff_eq,
    beq_eq_false_iff_ne] at hends hmark ⊢
  tauto

/-- A host, perhaps with a path, is a folder: what stands behind it and a slash is a path there, up to a query or a
fragment. -/
theorem exists_folder_withAuthority? {scheme : String} {u : Url} {site : List Char} {count : Nat}
    (h : withAuthority? scheme (site ++ List.replicate count '/') = some u) (hspecial : isSpecialScheme scheme = true)
    (hmarks : ∀ c ∈ site, endsPath c = false) :
    ∃ folder, StartsPath folder ∧ u.path = pathAfterAuthority true (folder ++ List.replicate count '/') ∧
      u.query = none ∧
      ∀ tail, withAuthority? scheme (site ++ '/' :: tail) = some { u with
        path := pathAfterAuthority true (folder ++ '/' :: tail.takeWhile (!endsPath ·))
        query := queryOf true (tail.dropWhile (!endsPath ·)) } := by
  let folder := site.dropWhile (!endsAuthority true ·)
  have hslash : (!endsAuthority true '/') = false := rfl
  have hslashes : ∀ c, (List.replicate count '/').head? = some c → (!endsAuthority true c) = false := by
    intro c hc
    rw [List.eq_of_mem_replicate (List.mem_of_head? hc), hslash]
  have hpath : ∀ back, (∀ c ∈ back, endsPath c = false) → ∀ c ∈ folder ++ back, (!endsPath c) = true := by
    intro back hback c hc
    rw [Bool.not_eq_true']
    obtain hc | hc := List.mem_append.1 hc
    · exact hmarks c ((List.dropWhile_sublist _).subset hc)
    · exact hback c hc
  rw [withAuthority?_eq, hspecial, authority?_eq, takeWhile_append_of_head hslashes, dropWhile_append_of_head hslashes]
    at h
  obtain ⟨place, hplace, rfl⟩ := Option.map_eq_some_iff.1 h
  have hreplicate := hpath (List.replicate count '/') (List.forall_mem_replicate.2 (.inr rfl))
  refine ⟨folder, startsPath_dropWhile hmarks, ?_, ?_, fun tail => ?_⟩
  · rw [afterAuthority, hspecial, List.takeWhile_eq_self_iff.2 hreplicate]
  · rw [afterAuthority, hspecial, List.dropWhile_eq_nil_iff.2 hreplicate]
    rfl
  · have hone := hpath ['/'] (List.forall_mem_singleton.2 rfl)
    have hback : folder ++ '/' :: tail = (folder ++ ['/']) ++ tail := by simp
    rw [withAuthority?_eq, hspecial, authority?_eq, takeWhile_append_mark (p := (!endsAuthority true ·)) hslash,
      dropWhile_append_mark (p := (!endsAuthority true ·)) hslash, hplace, Option.map_some, afterAuthority, hspecial,
      hback, List.takeWhile_append_of_pos hone, List.dropWhile_append_of_pos hone, List.append_assoc]
    rfl

/-- A URL of the web that ends in slashes, or in none, is a folder. -/
theorem exists_folder {text : String} {u : Url} (h : parse? text = some u) (hspecial : isSpecialScheme u.scheme = true)
    {front : List Char} {count : Nat} (hclean : cleaned text = front ++ List.replicate count '/')
    (hmarks : ∀ c ∈ front, endsPath c = false) :
    ∃ folder, StartsPath folder ∧ u.path = pathAfterAuthority true (folder ++ List.replicate count '/') ∧
      u.query = none ∧
      ∀ longer tail, cleaned longer = front ++ '/' :: tail →
        parse? longer = some { u with
          path := pathAfterAuthority true (folder ++ '/' :: tail.takeWhile (!endsPath ·))
          query := queryOf true (tail.dropWhile (!endsPath ·)) } := by
  obtain ⟨rest, hsplit⟩ := splitScheme_of_parse? h
  rw [parse?_of_splitScheme hsplit hspecial] at h
  rw [hclean] at hsplit
  obtain ⟨c, name, hinput, hname, halpha, hscheme⟩ := splitScheme_eq_some_iff.1 hsplit
  obtain ⟨behind, rfl, rfl⟩ := exists_of_append_eq_append_mark hinput fun hmem => by
    simpa using List.eq_of_mem_replicate hmem
  have hsite : behind.dropWhile isSlash ≠ [] := by
    -- slashes alone are no host
    intro hnil
    have hslashes : (List.replicate count '/').dropWhile isSlash = [] :=
      List.dropWhile_eq_nil_iff.2 (List.forall_mem_replicate.2 (.inr rfl))
    rw [List.dropWhile_append, hnil, List.isEmpty_nil, if_pos rfl, hslashes, withAuthority?_nil hspecial] at h
    cases h
  have hdrop : ∀ back, (behind ++ back).dropWhile isSlash = behind.dropWhile isSlash ++ back := fun back => by
    rw [List.dropWhile_append, if_neg (by simpa using hsite)]
  rw [hdrop] at h
  have hmarksSite : ∀ d ∈ behind.dropWhile isSlash, endsPath d = false := fun d hd =>
    hmarks d (by simp [(List.dropWhile_sublist _).subset hd])
  obtain ⟨folder, hstarts, hpath, hquery, hlonger⟩ := exists_folder_withAuthority? h hspecial hmarksSite
  refine ⟨folder, hstarts, hpath, hquery, fun longer tail hclean => ?_⟩
  have hsplitLonger : splitScheme (cleaned longer) = some (u.scheme, behind ++ '/' :: tail) := by
    rw [hclean, hscheme, List.append_assoc]
    exact splitScheme_append halpha hname _
  rw [parse?_of_splitScheme hsplitLonger hspecial, hdrop, hlonger]

end Url

namespace DurationLookup

open Url

/-! ### The text of an address -/

/-- What is left of the base, without slashes at its end, when it is read as a URL. -/
def baseText (base : String) : List Char := ((plainBase base).toList.dropWhile isEdge).filter isKept

/-- What is left of an id when it is read at the end of a URL. -/
def idText (id : String) : List Char := (id.toList.rdropWhile isEdge).filter isKept

theorem cleaned_itemAddress (base id : String) : cleaned (itemAddress base id) = baseText base ++ '/' :: idText id :=
  cleaned_append_mark (by decide) (by simp [itemAddress])

/-- The slashes at the end of a base are what it has more than its folder. -/
theorem exists_cleaned_base {base : String} (h : endsVisibly base.toList = true) :
    ∃ count, cleaned base = baseText base ++ List.replicate count '/' := by
  obtain ⟨count, hcut⟩ : ∃ count, base.toList = (plainBase base).toList ++ List.replicate count '/' := by
    refine ⟨(base.toList.rtakeWhile (· == '/')).length, ?_⟩
    have hplain : (plainBase base).toList = base.toList.rdropWhile (· == '/') := String.toList_ofList
    rw [hplain, ← List.eq_replicate_of_mem fun c hc => by simpa using List.mem_rtakeWhile_imp hc,
      List.rdropWhile_append_rtakeWhile]
  refine ⟨count, ?_⟩
  cases count with
  | zero =>
    rw [List.replicate_zero, List.append_nil] at hcut
    have hvisible : endsVisibly (base.toList.dropWhile isEdge) = true := by
      rw [← List.takeWhile_append_dropWhile (p := isEdge) (l := base.toList)] at h
      exact endsVisibly_of_append h
    rw [cleaned_eq, (rdropWhile_isEdge_eq_self_iff _).2 hvisible, hcut, baseText, List.replicate_zero, List.append_nil]
  | succ count =>
    rw [hcut, List.replicate_succ, List.append_cons] at h
    have hkept : (List.replicate count '/').filter isKept = List.replicate count '/' :=
      List.filter_eq_self.2 (List.forall_mem_replicate.2 (.inr rfl))
    have hmark : isEdge '/' = false := by decide
    rw [cleaned_append_mark hmark (hcut.trans (by rw [List.replicate_succ])),
      (rdropWhile_isEdge_eq_self_iff _).2 (endsVisibly_of_append h), hkept, baseText, List.replicate_succ]

/-! ### Plain ids -/

/-- The characters that mean something at any place of a URL of the web, or count for nothing there. -/
def isMark (c : Char) : Bool := ['\t', '\n', '\r', '/', '\\', '?', '#'].contains c

/-- An id that has nothing that means something in a URL. -/
structure IsPlainId (id : String) : Prop where
  noMark : ∀ c ∈ id.toList, isMark c = false
  visible : endsVisibly id.toList = true
  noEscape : hasEscape id.toList = false
  noDots : id ≠ "." ∧ id ≠ ".."

theorem isMark_eq_false_iff (c : Char) :
    isMark c = false ↔ isKept c = true ∧ endsPath c = false ∧ isSlash c = false := by
  simp only [isMark, isKept, endsPath, isSlash, List.contains_eq_mem, List.mem_cons, List.not_mem_nil, or_false,
    decide_eq_false_iff_not, not_or, Bool.and_eq_true, bne_iff_ne, Bool.or_eq_false_iff, beq_eq_false_iff_ne]
  tauto

/-- Without escapes there are two ways only to write dots. -/
theorem isDots_eq_false_iff {text : List Char} (h : hasEscape text = false) :
    isDots text = false ↔ String.ofList text ≠ "." ∧ String.ofList text ≠ ".." := by
  have hways : ∀ s : String, isDots s.toList = true → s = "." ∨ s = ".." ∨ hasEscape s.toList = true := by
    intro s hs
    rw [isDots, isDoubleDot, isSingleDot, String.ofList_toList, Bool.or_eq_true, List.contains_iff_mem,
      List.contains_iff_mem, ← List.mem_append] at hs
    revert s
    decide
  constructor
  · refine fun hnot => ⟨fun hdot => ?_, fun hdots => ?_⟩
    · simp [isDots, isSingleDot, hdot] at hnot
    · simp [isDots, isDoubleDot, hdots] at hnot
  · rintro ⟨hdot, hdots⟩
    refine Bool.eq_false_iff.2 fun hall => ?_
    rcases hways (String.ofList text) (by rwa [String.toList_ofList]) with heq | heq | heq
    · exact hdot heq
    · exact hdots heq
    · rw [String.toList_ofList, h] at heq
      cases heq

/-- What an id becomes when it is read as the last part of a URL, of which it is a part only if something is cut off. -/
theorem idText_eq_of_isPlainId {id : String} (h : IsPlainId id) :
    (idText id).takeWhile (!endsPath ·) = id.toList ∧ (idText id).dropWhile (!endsPath ·) = [] ∧
    ∀ c ∈ id.toList, isSlash c = false := by
  have hmarks := fun c hc => (isMark_eq_false_iff c).1 (h.noMark c hc)
  have hid : idText id = id.toList := by
    rw [idText, (rdropWhile_isEdge_eq_self_iff _).2 h.visible, List.filter_eq_self.2 fun c hc => (hmarks c hc).1]
  have hpath : ∀ c ∈ id.toList, (!endsPath c) = true := fun c hc => by rw [(hmarks c hc).2.1, Bool.not_false]
  rw [hid]
  exact ⟨List.takeWhile_eq_self_iff.2 hpath, List.dropWhile_eq_nil_iff.2 hpath, fun c hc => (hmarks c hc).2.2⟩

/-- An id that is found in what is left of it has lost nothing. -/
theorem kept_of_sublist_idText {id : String} (h : id.toList.Sublist ((idText id).takeWhile (!endsPath ·))) :
    endsVisibly id.toList = true ∧ ∀ c ∈ id.toList, isKept c = true ∧ endsPath c = false := by
  have hkept : id.toList.Sublist (idText id) := h.trans (List.takeWhile_sublist _)
  have htrimmed : id.toList.Sublist (id.toList.rdropWhile isEdge) := hkept.trans List.filter_sublist
  refine ⟨?_, fun c hc => ⟨(List.mem_filter.1 (hkept.subset hc)).2, ?_⟩⟩
  · exact (rdropWhile_isEdge_eq_self_iff _).1 ((List.rdropWhile_prefix ..).sublist.antisymm htrimmed)
  · simpa using List.mem_takeWhile_imp (h.subset hc)

/-- Only a plain id is decoded from the last segment that it becomes: whatever is cut off or decoded makes it
shorter. -/
theorem isPlainId_of_percentDecode_eq {id : String} {last : List Char}
    (hlast : last <:+ (idText id).takeWhile (!endsPath ·)) (hslash : ∀ c ∈ last, isSlash c = false)
    (hdecode : percentDecode (if isDots last then [] else last) = Bytes.ofText id) : IsPlainId id := by
  have hsegment : (if isDots last then [] else last).Sublist last := by
    split
    · exact List.nil_sublist _
    · exact List.Sublist.refl _
  have hpart : last.Sublist id.toList :=
    hlast.sublist.trans ((List.takeWhile_sublist _).trans (List.filter_sublist.trans (List.rdropWhile_prefix ..).sublist))
  have hwhole : (if isDots last then [] else last) = id.toList := by
    refine Bytes.eq_of_sublist_of_size_le (hsegment.trans hpart) ?_
    rw [Bytes.size, String.ofList_toList, ← hdecode]
    exact (length_percentDecode _).1
  have hdots : isDots id.toList = false := by
    cases hlastDots : isDots last with
    | true =>
      rw [hlastDots, if_pos rfl] at hwhole
      rw [← hwhole]
      decide
    | false =>
      rw [hlastDots, if_neg Bool.false_ne_true] at hwhole
      rw [← hwhole, hlastDots]
  rw [hwhole] at hdecode hsegment
  have hescape : hasEscape id.toList = false := by
    rw [← percentDecode_eq_ofText_iff, String.ofList_toList, hdecode]
  obtain ⟨hvisible, hkept⟩ := kept_of_sublist_idText (hsegment.trans hlast.sublist)
  refine ⟨fun c hc => (isMark_eq_false_iff c).2 ?_, hvisible, hescape, ?_⟩
  · exact ⟨(hkept c hc).1, (hkept c hc).2, hslash c (hsegment.subset hc)⟩
  · simpa using (isDots_eq_false_iff hescape).1 hdots

/-! ### Requests -/

variable {base : String} {u : Url}

/-- What the ids are read behind: a host and the segments of a folder, last first. -/
def ReadsBehind (base : String) (u : Url) (passed : List (List Char)) : Prop :=
  ∀ id, request? base id = some { u with
    path := String.ofList (joinSegments
      (resolveDots passed ((slashed ((idText id).takeWhile (!endsPath ·))).splitOn '/')))
    query := queryOf true ((idText id).dropWhile (!endsPath ·)) }

/-- All requests go to the host of the base, and are read behind the folder that its path leads to. -/
theorem exists_readsBehind (hbase : parse? base = some u) (hscheme : u.scheme ∈ ["http", "https"])
    (hmarks : '?' ∉ base.toList ∧ '#' ∉ base.toList) (hvisible : endsVisibly base.toList = true) :
    ∃ passed, trimmed u.path.toList = trimmed (joinSegments passed.reverse) ∧ ReadsBehind base u passed := by
  have hspecial : isSpecialScheme u.scheme = true := by
    simp only [List.mem_cons, List.not_mem_nil, or_false] at hscheme
    rcases hscheme with h | h <;> rw [h] <;> rfl
  have hfront : ∀ c ∈ baseText base, endsPath c = false := by
    intro c hc
    have hmem : c ∈ base.toList := by
      have hplain := (List.dropWhile_sublist _).subset (List.filter_sublist.subset hc)
      rw [plainBase, String.toList_ofList] at hplain
      exact (List.rdropWhile_prefix ..).subset hplain
    rw [endsPath, Bool.or_eq_false_iff, beq_eq_false_iff_ne, beq_eq_false_iff_ne]
    exact ⟨fun h => hmarks.1 (h ▸ hmem), fun h => hmarks.2 (h ▸ hmem)⟩
  obtain ⟨count, hclean⟩ := exists_cleaned_base hvisible
  obtain ⟨folder, hstarts, hpath, -, hlonger⟩ := exists_folder hbase hspecial hclean hfront
  refine ⟨(folderSegments folder).foldl passSegment [], ?_, fun id => ?_⟩
  · rw [hpath, trimmed_pathAfterAuthority hstarts]
  · rw [request?, hlonger _ _ (cleaned_itemAddress base id), pathAfterAuthority_append hstarts]
    simp only [Option.filter]
    rw [if_pos (by simpa using hscheme)]

/-- A plain id is one more segment. -/
theorem request?_of_isPlainId {passed : List (List Char)} (h : ReadsBehind base u passed) {id : String}
    (hid : IsPlainId id) : request? base id = some { u with
      path := String.ofList (joinSegments passed.reverse) ++ "/" ++
        String.ofList (percentEncode inPathSet id.toList)
      query := none } := by
  obtain ⟨htake, hdrop, hslash⟩ := idText_eq_of_isPlainId hid
  have hdots : isDots id.toList = false := (isDots_eq_false_iff hid.noEscape).2 (by simpa using hid.noDots)
  have hjoin : String.ofList (joinSegments (passed.reverse ++ [id.toList])) =
      String.ofList (joinSegments passed.reverse) ++ "/" ++ String.ofList (percentEncode inPathSet id.toList) := by
    rw [joinSegments_append, ← String.toList_inj]
    simp [joinSegments]
  rw [h, htake, hdrop, splitOn_slashed_of_notMem hslash, resolveDots_of_not_isDots hdots, hjoin]
  rfl

/-- The path of an item is a segment of its own, which is decoded to its id. -/
def HasOwnAddress (base above id : String) : Prop :=
  ∃ segment : String, (request? base id).map Url.path = some (above ++ "/" ++ segment) ∧ '/' ∉ segment.toList ∧
    percentDecode segment.toList = Bytes.ofText id

theorem hasOwnAddress_of_isPlainId {passed : List (List Char)} (h : ReadsBehind base u passed) {id : String}
    (hid : IsPlainId id) : HasOwnAddress base (String.ofList (joinSegments passed.reverse)) id := by
  obtain ⟨-, -, hslash⟩ := idText_eq_of_isPlainId hid
  refine ⟨String.ofList (percentEncode inPathSet id.toList), ?_, ?_, ?_⟩
  · rw [request?_of_isPlainId h hid]
    rfl
  · rw [String.toList_ofList]
    exact slash_notMem_percentEncode fun hmem => absurd (hslash '/' hmem) (by decide)
  · rw [String.toList_ofList, percentDecode_percentEncode, (percentDecode_eq_ofText_iff _).2 hid.noEscape,
      String.ofList_toList]

theorem isPlainId_of_hasOwnAddress {passed : List (List Char)} (h : ReadsBehind base u passed) {above id : String}
    (hown : HasOwnAddress base above id) : IsPlainId id := by
  obtain ⟨segment, hpath, hslash, hdecode⟩ := hown
  obtain ⟨front, last, hsplit, hsuffix, hlast⟩ := exists_splitOn_slashed ((idText id).takeWhile (!endsPath ·))
  obtain ⟨before, hbefore⟩ := exists_resolveDots_singleton (front.foldl passSegment passed) last
  rw [h, hsplit, resolveDots_append (List.cons_ne_nil last []), hbefore, joinSegments_append, Option.map_some,
    Option.some_inj, ← String.toList_inj] at hpath
  have hcut : joinSegments before ++ '/' :: percentEncode inPathSet (if isDots last then [] else last) =
      above.toList ++ '/' :: segment.toList := by simpa [joinSegments] using hpath
  have hnoSlash : '/' ∉ percentEncode inPathSet (if isDots last then [] else last) := by
    refine slash_notMem_percentEncode fun hmem => ?_
    split at hmem
    · cases hmem
    · exact absurd (hlast '/' hmem) (by decide)
  rw [← (append_mark_inj hnoSlash hslash hcut).2, percentDecode_percentEncode] at hdecode
  exact isPlainId_of_percentDecode_eq hsuffix hlast hdecode

/-- Two items with addresses of their own have two addresses. -/
theorem HasOwnAddress.eq_of_path_eq {above id₁ id₂ : String} (h₁ : HasOwnAddress base above id₁)
    (h₂ : HasOwnAddress base above id₂)
    (hpath : (request? base id₁).map Url.path = (request? base id₂).map Url.path) : id₁ = id₂ := by
  obtain ⟨segment₁, hpath₁, hslash₁, hdecode₁⟩ := h₁
  obtain ⟨segment₂, hpath₂, hslash₂, hdecode₂⟩ := h₂
  rw [hpath₁, hpath₂, Option.some_inj, ← String.toList_inj] at hpath
  have hsegment : segment₁.toList = segment₂.toList := by simpa using hpath
  have hbytes : Bytes.ofText id₁ = Bytes.ofText id₂ := by rw [← hdecode₁, ← hdecode₂, hsegment]
  exact Option.some.inj (by rw [← Bytes.toText?_ofText id₁, hbytes, Bytes.toText?_ofText])

/-- An item has an address of its own in the folder of the base if and only if its id is plain.  Its request is then for
the id in percent encoding, and no other such item has its path. -/
theorem exists_hasOwnAddress_iff (hbase : parse? base = some u) (hscheme : u.scheme ∈ ["http", "https"])
    (hmarks : '?' ∉ base.toList ∧ '#' ∉ base.toList) (hvisible : endsVisibly base.toList = true) :
    ∃ above, plainBase above = plainBase u.path ∧
      (∀ id, HasOwnAddress base above id ↔ IsPlainId id) ∧
      (∀ id, IsPlainId id → request? base id = some { u with
        path := above ++ "/" ++ String.ofList (percentEncode inPathSet id.toList), query := none }) ∧
      (∀ id₁ id₂, IsPlainId id₁ → IsPlainId id₂ → id₁ ≠ id₂ →
        (request? base id₁).map Url.path ≠ (request? base id₂).map Url.path) := by
  obtain ⟨passed, hfolder, hreads⟩ := exists_readsBehind hbase hscheme hmarks hvisible
  have hown : ∀ id, IsPlainId id → HasOwnAddress base (String.ofList (joinSegments passed.reverse)) id :=
    fun _ => hasOwnAddress_of_isPlainId hreads
  refine ⟨String.ofList (joinSegments passed.reverse), ?_, fun id => ⟨isPlainId_of_hasOwnAddress hreads, hown id⟩,
    fun _ => request?_of_isPlainId hreads, fun id₁ id₂ h₁ h₂ hne heq => ?_⟩
  · rw [plainBase, plainBase, String.toList_ofList]
    exact congrArg String.ofList hfolder.symm
  · exact hne ((hown id₁ h₁).eq_of_path_eq (hown id₂ h₂) heq)

/-- Blanks are part of an address, steps up are not. -/
theorem exists_hasOwnAddress_iff_durations :
    ∃ above, plainBase above = "/durations" ∧ HasOwnAddress "http://localhost/durations" above "job 1" ∧
      ¬ HasOwnAddress "http://localhost/durations" above "../job-1" := by
  have hbase : parse? "http://localhost/durations" =
      some { scheme := "http", host := some (.name "localhost"), path := "/durations" } := by decide
  obtain ⟨above, hplain, hiff, -⟩ := exists_hasOwnAddress_iff hbase (by decide) (by decide) (by decide)
  refine ⟨above, hplain.trans (by decide), (hiff _).2 ?_, fun hown => ?_⟩
  · exact ⟨by simp [isMark], by decide, by decide, by decide⟩
  · exact absurd (((hiff _).1 hown).noMark '/' (by decide)) (by decide)

/-- Not all items that can be submitted have addresses of their own. -/
theorem not_forall_hasOwnAddress :
    ¬ ∀ base u, parse? base = some u → u.scheme ∈ ["http", "https"] → '?' ∉ base.toList ∧ '#' ∉ base.toList →
      ∀ body₁ body₂ item₁ item₂, WorkItem.decode body₁ = .ok item₁ → WorkItem.decode body₂ = .ok item₂ →
        item₁.id ≠ item₂.id →
        (request? base item₁.id).map Url.path ≠ (request? base item₂.id).map Url.path ∧
          ∃ above, plainBase above = plainBase u.path ∧ HasOwnAddress base above item₁.id := by
  intro hall
  have hbase : parse? "http://localhost/durations" =
      some { scheme := "http", host := some (.name "localhost"), path := "/durations" } := by decide
  have haccepted : ∀ id ∈ ["../job-1", "job-1"],
      WorkItem.decode (Bytes.ofText (WorkItem.encode ⟨id, "p"⟩)) = .ok ⟨id, "p"⟩ :=
    fun id hid => WorkItem.decode_encode (by revert id; decide) (by decide +revert)
  obtain ⟨-, above, -, hown⟩ := hall _ _ hbase (by decide) (by decide) _ _ _ _
    (haccepted "../job-1" (by decide)) (haccepted "job-1" (by decide)) (by decide)
  obtain ⟨passed, -, hreads⟩ := exists_readsBehind hbase (by decide) (by decide) (by decide)
  exact absurd ((isPlainId_of_hasOwnAddress hreads hown).noMark '/' (by decide)) (by decide)

end DurationLookup

end SpeechDispatch
