import SpeechDispatch.Proofs.TextCuts
import SpeechDispatch.Queue.Setup
import SpeechDispatch.Url.Basic

/-!
# What the log shows of a password

The line about the connection hides what stands between the last colon before the first `@` and that `@`.  In a URL the
password begins behind the first colon of the user information, and ends at the last `@` before the host.  The two
agree on passwords without colons and `@`.  Of any other password the line shows the part up to the last such colon, or
the part from its first `@` on, or both (`maskPassword_address`), and so two passwords give the same line if and only if
the same parts of them are shown (`maskPassword_eq_iff`).
-/

namespace SpeechDispatch

/-- An address with a user and a password. -/
def loginAddress (scheme user password rest : String) : String :=
  scheme ++ "://" ++ user ++ ":" ++ password ++ "@" ++ rest

/-- The password that the grammar of URLs finds in an address. -/
def Url.password? (text : String) : Option String := do
  let (scheme, rest) ← splitScheme (cleaned text)
  let special := isSpecialScheme scheme
  let isEnd (c : Char) : Bool := c == '/' || c == '?' || c == '#' || (special && c == '\\')
  let start := if special then rest.dropWhile fun c => c == '/' || c == '\\' else rest.drop 2
  let (user, _) ← cutUserInfo (cutBefore isEnd start).1
  match user.dropWhile (· ≠ ':') with
  | _ :: password => some (String.ofList password)
  | [] => none

/-- The part of a password up to the last colon before its first `@`. -/
def shownFront (password : String) : String :=
  String.ofList ((password.toList.takeWhile (· ≠ '@')).rdropWhile (· ≠ ':'))

/-- The part of a password from its first `@` on. -/
def shownBack (password : String) : String := String.ofList (password.toList.dropWhile (· ≠ '@'))

/-! ### The masked address -/

/-- An address up to the password. -/
private def loginFront (scheme user : String) : List Char := scheme.toList ++ "://".toList ++ user.toList

private theorem toList_loginAddress (scheme user password rest : String) :
    (loginAddress scheme user password rest).toList =
      loginFront scheme user ++ ':' :: (password.toList ++ '@' :: rest.toList) := by
  simp [loginAddress, loginFront]

/-- The first `@` of an address is in the password, or behind it. -/
private theorem cut_loginAddress {scheme user : String} (hscheme : '@' ∉ scheme.toList) (huser : '@' ∉ user.toList)
    (password rest : String) :
    (loginAddress scheme user password rest).toList.takeWhile (· ≠ '@') =
      loginFront scheme user ++ ':' :: password.toList.takeWhile (· ≠ '@') ∧
    (loginAddress scheme user password rest).toList.dropWhile (· ≠ '@') =
      password.toList.dropWhile (· ≠ '@') ++ '@' :: rest.toList := by
  have hpassed : ∀ c ∈ loginFront scheme user ++ [':'], decide (c ≠ '@') = true :=
    forall_ne_mark_iff.2 (by simp [loginFront, hscheme, huser])
  have happend : (loginAddress scheme user password rest).toList =
      (loginFront scheme user ++ [':']) ++ (password.toList ++ '@' :: rest.toList) := by
    rw [toList_loginAddress, List.append_assoc]
    rfl
  rw [happend, List.takeWhile_append_of_pos hpassed, List.dropWhile_append_of_pos hpassed,
    takeWhile_append_mark (by decide), dropWhile_append_mark (by decide), List.append_assoc]
  exact ⟨rfl, rfl⟩

/-- The mask stands between the part up to the last colon before the first `@`, and the part from that `@` on. -/
private theorem maskPassword_of_cuts {url : String} {user back : List Char}
    (huser : (url.toList.takeWhile (· ≠ '@')).rdropWhile (· ≠ ':') = user) (huserNe : user ≠ [])
    (hback : url.toList.dropWhile (· ≠ '@') = back) (hbackNe : back ≠ []) :
    maskPassword url = String.ofList (user ++ "***".toList ++ back) := by
  have hreverse : (url.toList.takeWhile (· ≠ '@')).reverse.dropWhile (· ≠ ':') = user.reverse := by
    rw [← huser, List.rdropWhile, List.reverse_reverse]
  unfold maskPassword
  simp only [hback, hreverse]
  obtain ⟨c, back, rfl⟩ := List.exists_cons_of_ne_nil hbackNe
  obtain ⟨d, front, hcons⟩ := List.exists_cons_of_ne_nil fun hnil => huserNe (List.reverse_eq_nil_iff.1 hnil)
  simp only [hcons]
  rw [← hcons, List.reverse_reverse]

/-- What the mask keeps: of the password its front and its back, and all around it. -/
theorem maskPassword_address {scheme user : String} (hscheme : '@' ∉ scheme.toList) (huser : '@' ∉ user.toList)
    (password rest : String) :
    maskPassword (loginAddress scheme user password rest) =
      loginAddress scheme user (shownFront password ++ "***" ++ shownBack password) rest := by
  obtain ⟨htake, hdrop⟩ := cut_loginAddress hscheme huser password rest
  have hcolon : ((loginAddress scheme user password rest).toList.takeWhile (· ≠ '@')).rdropWhile (· ≠ ':') =
      loginFront scheme user ++ ':' :: (shownFront password).toList := by
    rw [htake, rdropWhile_append_mark (by decide)]
    simp [shownFront]
  have hback : (loginAddress scheme user password rest).toList.dropWhile (· ≠ '@') =
      (shownBack password).toList ++ '@' :: rest.toList := by
    rw [hdrop]
    simp [shownBack]
  rw [maskPassword_of_cuts hcolon (by simp) hback (by simp), ← String.toList_inj, toList_loginAddress]
  simp

/-! ### Which passwords give the same line -/

private theorem notMem_shownFront (password : String) : '@' ∉ (shownFront password).toList := by
  intro hmem
  rw [shownFront, String.toList_ofList] at hmem
  have htaken := (List.rdropWhile_prefix ..).subset hmem
  simpa using List.mem_takeWhile_imp htaken

/-- The mask has no `@` of its own, so the first one in what is shown begins the back. -/
private theorem cut_shown (password : String) :
    (shownFront password ++ "***" ++ shownBack password).toList.takeWhile (· ≠ '@') =
      (shownFront password).toList ++ "***".toList ∧
    (shownFront password ++ "***" ++ shownBack password).toList.dropWhile (· ≠ '@') = (shownBack password).toList := by
  have hpassed : ∀ c ∈ (shownFront password).toList ++ "***".toList, decide (c ≠ '@') = true :=
    forall_ne_mark_iff.2 (by simp [notMem_shownFront password])
  have hback : (shownBack password).toList = password.toList.dropWhile (· ≠ '@') := String.toList_ofList
  have happend : (shownFront password ++ "***" ++ shownBack password).toList =
      ((shownFront password).toList ++ "***".toList) ++ (shownBack password).toList := by
    rw [String.toList_append, String.toList_append]
  rw [happend, List.takeWhile_append_of_pos hpassed, List.dropWhile_append_of_pos hpassed, hback, takeWhile_dropWhile,
    List.append_nil]
  exact ⟨rfl, List.dropWhile_idempotent ..⟩

/-- The parts around the mask can be read off it. -/
theorem eq_of_shown_eq {p₁ p₂ : String}
    (h : shownFront p₁ ++ "***" ++ shownBack p₁ = shownFront p₂ ++ "***" ++ shownBack p₂) :
    shownFront p₁ = shownFront p₂ ∧ shownBack p₁ = shownBack p₂ := by
  have htake := (cut_shown p₁).1
  have hdrop := (cut_shown p₁).2
  rw [h, (cut_shown p₂).1] at htake
  rw [h, (cut_shown p₂).2] at hdrop
  exact ⟨(String.toList_inj.1 (List.append_cancel_right htake)).symm, (String.toList_inj.1 hdrop).symm⟩

/-- Nothing is shown of a password if and only if it has neither a colon nor an `@`. -/
theorem shown_eq_empty_iff (password : String) :
    (shownFront password = "" ∧ shownBack password = "") ↔ ':' ∉ password.toList ∧ '@' ∉ password.toList := by
  have hfront : shownFront password = "" ↔ ':' ∉ password.toList.takeWhile (· ≠ '@') := by
    rw [shownFront, String.ofList_eq_empty_iff, List.rdropWhile_eq_nil_iff, forall_ne_mark_iff]
  have hback : shownBack password = "" ↔ '@' ∉ password.toList := by
    rw [shownBack, String.ofList_eq_empty_iff, List.dropWhile_eq_nil_iff, forall_ne_mark_iff]
  rw [hfront, hback]
  refine and_congr_left fun hat => ?_
  rw [List.takeWhile_eq_self_iff.2 (forall_ne_mark_iff.2 hat)]

/-- The masked address is made of the address around the password and two parts of the password.  It is the same for
two passwords if and only if these parts are, and they are empty exactly for a password without colons and `@`. -/
theorem maskPassword_eq_iff {scheme user : String} (hscheme : '@' ∉ scheme.toList) (huser : '@' ∉ user.toList)
    (rest p₁ p₂ : String) :
    maskPassword (loginAddress scheme user p₁ rest) =
      loginAddress scheme user (shownFront p₁ ++ "***" ++ shownBack p₁) rest ∧
    (maskPassword (loginAddress scheme user p₁ rest) = maskPassword (loginAddress scheme user p₂ rest) ↔
      shownFront p₁ = shownFront p₂ ∧ shownBack p₁ = shownBack p₂) ∧
    (shownFront p₁ = "" ∧ shownBack p₁ = "" ↔ ':' ∉ p₁.toList ∧ '@' ∉ p₁.toList) := by
  refine ⟨maskPassword_address hscheme huser p₁ rest, ⟨fun heq => ?_, fun ⟨hfront, hback⟩ => ?_⟩,
    shown_eq_empty_iff p₁⟩
  · rw [maskPassword_address hscheme huser, maskPassword_address hscheme huser, ← String.toList_inj,
      toList_loginAddress, toList_loginAddress] at heq
    have hcolon := List.append_cancel_left heq
    have hshown := List.append_cancel_right (List.tail_eq_of_cons_eq hcolon)
    exact eq_of_shown_eq (String.toList_inj.1 hshown)
  · rw [maskPassword_address hscheme huser, maskPassword_address hscheme huser, hfront, hback]

/-- Of a password with a colon and an `@` both a front and a back are shown. -/
theorem maskPassword_eq_iff_colonAndAt :
    '@' ∉ "amqp".toList ∧ '@' ∉ "guest".toList ∧
    maskPassword (loginAddress "amqp" "guest" "sec:ret@word" "localhost") = "amqp://guest:sec:***@word@localhost" ∧
    maskPassword (loginAddress "amqp" "guest" "sec:ret@word" "localhost") ≠
      maskPassword (loginAddress "amqp" "guest" "secret" "localhost") := by
  have hscheme : '@' ∉ "amqp".toList := by decide
  have huser : '@' ∉ "guest".toList := by decide
  obtain ⟨hmasked, hiff, -⟩ := maskPassword_eq_iff hscheme huser "localhost" "sec:ret@word" "secret"
  refine ⟨hscheme, huser, hmasked.trans (by decide), fun heq => ?_⟩
  exact absurd (hiff.1 heq).1 (by decide)

/-- Not all passwords that a URL can have give the same line. -/
theorem not_forall_maskPassword_eq :
    ¬ ∀ scheme user rest p₁ p₂ : String, (∀ c ∈ user.toList, c ≠ ':' ∧ c ≠ '@' ∧ c ≠ '/') →
      (∀ p ∈ [p₁, p₂], (Url.parse? (loginAddress scheme user p rest)).isSome ∧
        Url.password? (loginAddress scheme user p rest) = some p) →
      maskPassword (loginAddress scheme user p₁ rest) = maskPassword (loginAddress scheme user p₂ rest) := by
  intro hall
  have haccepted : ∀ p ∈ ["sec:ret@word", "secret"],
      (Url.parse? (loginAddress "amqp" "guest" p "localhost")).isSome ∧
        Url.password? (loginAddress "amqp" "guest" p "localhost") = some p := by decide
  have heq := hall "amqp" "guest" "localhost" "sec:ret@word" "secret" (by simp) haccepted
  revert heq
  decide

end SpeechDispatch
