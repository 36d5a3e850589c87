import Chargeback.Export.Database
import Chargeback.Proofs.StatementReading
import Chargeback.Proofs.TextBytes
import Chargeback.Proofs.TextSpan
import Chargeback.Proofs.ValidatedSettings
import Mathlib.Tactic.MkIffOfInductiveProp

/-!
# The login in the address of the database

The address of the database is put together from user name, password, endpoint and database as they
are: nothing is escaped. Whoever reads it finds the marks of the URL rules, wherever they come from.
The authority ends at the first of `/`, `?` and `#`, the user information at the last `@` in it, the
user name at the first `:`, and percent escapes are decoded.

Settings are LITERAL if none of their characters is such a mark where it stands. From literal
settings everything is read back (`Literal.parts?_dsn`), except that a password is written only after
a user name. From others something else is read: a mark in the wrong place only ever makes what is
read shorter than what was written (`infoLength_of_userAndPassword?`), so that settings of which all
is read back are literal (`read?_dsn_iff`).

Validation asks of the database that it is a plain identifier, and this is why no mark can come from
it; user names and passwords it leaves alone.
-/

namespace Chargeback

open Text

/-! ## Reading an address up to its host -/

namespace Url

/-- The parts of an address, with its host and port as they are written. -/
structure Parts where
  scheme : String
  user : String
  password : Option String
  place : List Char
  path : List Char
  query : Option String
  deriving DecidableEq, Repr

/-- What stands after the first question mark. -/
def queryOf (s : List Char) : Option String := match s.dropWhile (· != '?') with
  | _ :: q => some (String.ofList q)
  | [] => none

/-- Takes an address apart. -/
def parts? (address : List Char) : Option Parts := do
  let (scheme, rest) ← splitScheme? address
  let special := isSpecial scheme
  let rest ← skipSlashes? special rest
  let authority := rest.takeWhile fun c => !endsAuthority special c
  let tail := rest.dropWhile fun c => !endsAuthority special c
  let (info, place) := splitUserInfo authority
  let (user, password) ← userAndPassword? (info.getD [])
  let beforeFragment := tail.takeWhile (· != '#')
  return { scheme, user, password, place, path := beforeFragment.takeWhile (· != '?'),
           query := queryOf beforeFragment }

/-- An address is read by taking its clean text apart; then its host has to be one. -/
theorem read?_eq (text : String) : read? text = (parts? (cleaned text.toList)).bind fun p =>
    (hostAndPort? (isSpecial p.scheme) p.place).map fun (host, port) =>
      { scheme := p.scheme, user := p.user, password := p.password, host, port,
        path := String.ofList p.path, query := p.query } := by
  simp only [read?, parts?, Option.bind_eq_bind, Option.bind_assoc, Option.pure_def,
    Option.bind_some, Option.map_eq_bind, Function.comp_def]
  rfl

/-- Holds no tab and no end of line. -/
def IsUnbroken (s : List Char) : Prop := ∀ c ∈ s, (c != '\t' && c != '\n' && c != '\r') = true

instance {s : List Char} : Decidable (IsUnbroken s) :=
  decidable_of_iff (s.all fun c => c != '\t' && c != '\n' && c != '\r') List.all_eq_true

theorem cleaned_eq_self {s : List Char} (hfirst : StopsAt isOuterBlank s)
    (hlast : StopsAt isOuterBlank s.reverse) (h : IsUnbroken s) : cleaned s = s := by
  rw [cleaned, dropWhile_of_stopsAt hfirst, dropWhile_of_stopsAt hlast, List.reverse_reverse]
  exact List.filter_eq_self.2 h

/-! ## Percent escapes -/

/-- Somewhere a percent sign stands before two hexadecimal digits. -/
def HasEscape (s : List Char) : Prop :=
  ∃ a b, (hexValue? a).isSome = true ∧ (hexValue? b).isSome = true ∧ ['%', a, b] <:+: s

theorem hasEscape_cons {c : Char} {s : List Char} : HasEscape (c :: s) ↔
    (c = '%' ∧ ∃ a b r, s = a :: b :: r ∧ (hexValue? a).isSome = true ∧
      (hexValue? b).isSome = true) ∨ HasEscape s := by
  constructor
  · rintro ⟨a, b, ha, hb, hinfix⟩
    rcases List.infix_cons_iff.1 hinfix with hfront | hlater
    · obtain ⟨r, hr⟩ := hfront
      obtain ⟨rfl, rfl⟩ : '%' = c ∧ a :: b :: r = s := by simpa using hr
      exact .inl ⟨rfl, a, b, r, rfl, ha, hb⟩
    · exact .inr ⟨a, b, ha, hb, hlater⟩
  · rintro (⟨rfl, a, b, r, rfl, ha, hb⟩ | ⟨a, b, ha, hb, hinfix⟩)
    · exact ⟨a, b, ha, hb, [], r, rfl⟩
    · exact ⟨a, b, ha, hb, List.infix_cons hinfix⟩

theorem length_utf8EncodeChar_pos (c : Char) : 0 < (String.utf8EncodeChar c).length := by
  rw [String.length_utf8EncodeChar]
  exact c.utf8Size_pos

/-- The bytes are fewer than those of the text if it has an escape, and else they are those. -/
def IsShortened (s : List Char) (bs : List UInt8) : Prop :=
  HasEscape s ∧ bs.length < (bytes s).length ∨ ¬HasEscape s ∧ bs = bytes s

theorem IsShortened.length_le {s : List Char} {bs : List UInt8} (h : IsShortened s bs) :
    bs.length ≤ (bytes s).length := by
  rcases h with ⟨-, hless⟩ | ⟨-, hsame⟩
  · exact hless.le
  · rw [hsame]

/-- A character with which no escape begins adds its bytes on both sides. -/
theorem IsShortened.cons {c : Char} {s : List Char} {bs : List UInt8} (h : IsShortened s bs)
    (hfirst : HasEscape (c :: s) → HasEscape s) :
    IsShortened (c :: s) (encode (String.singleton c) ++ bs) := by
  have hencode : encode (String.singleton c) = String.utf8EncodeChar c := by
    rw [encode_eq_bytes, String.toList_singleton, bytes_cons, bytes_nil, List.append_nil]
  unfold IsShortened
  rw [hencode, bytes_cons, List.length_append, List.length_append]
  rcases h with ⟨hescape, hless⟩ | ⟨hnone, hsame⟩
  · exact .inl ⟨hasEscape_cons.2 (.inr hescape), by omega⟩
  · exact .inr ⟨fun h => hnone (hfirst h), by rw [hsame]⟩

/-- An escape is shorter when it is decoded, and everything else stays as it is. -/
theorem isShortened_percentDecode (s : List Char) : IsShortened s (percentDecode s) := by
  fun_induction percentDecode s with
  | case1 => exact .inr ⟨by simp [HasEscape], rfl⟩
  | case2 a b r x y hb ha ih =>
      refine .inl ⟨hasEscape_cons.2 (.inl ⟨rfl, a, b, r, rfl, by simp [ha], by simp [hb]⟩), ?_⟩
      have hrest := ih.length_le
      have hpercent := length_utf8EncodeChar_pos '%'
      have hfirst := length_utf8EncodeChar_pos a
      have hsecond := length_utf8EncodeChar_pos b
      simp only [bytes_cons, List.length_append, List.length_cons]
      omega
  | case3 a b r hnot ih =>
      refine ih.cons fun h => ?_
      rcases hasEscape_cons.1 h with ⟨-, a', b', r', hr, ha, hb⟩ | hlater
      · obtain ⟨rfl, rfl, rfl⟩ : a = a' ∧ b = b' ∧ r = r' := by simpa using hr
        obtain ⟨x, hx⟩ := Option.isSome_iff_exists.1 ha
        obtain ⟨y, hy⟩ := Option.isSome_iff_exists.1 hb
        exact (hnot x y hx hy).elim
      · exact hlater
  | case4 c r hnot ih =>
      refine ih.cons fun h => ?_
      rcases hasEscape_cons.1 h with ⟨hc, a, b, r', hr, -, -⟩ | hlater
      · exact (hnot a b r' hc hr).elim
      · exact hlater

theorem hasEscape_iff {s : List Char} :
    HasEscape s ↔ (percentDecode s).length < (bytes s).length := by
  rcases isShortened_percentDecode s with ⟨hescape, hless⟩ | ⟨hnone, hsame⟩
  · exact iff_of_true hescape hless
  · exact iff_of_false hnone (by rw [hsame]; exact lt_irrefl _)

instance {s : List Char} : Decidable (HasEscape s) := decidable_of_iff _ hasEscape_iff.symm

/-- What bytes are decoded to is encoded as those bytes. -/
theorem encode_of_decode? {bs : List UInt8} {t : String} (h : decode? bs = some t) :
    encode t = bs := by
  unfold decode? String.fromUTF8? at h
  split at h
  · cases h
    rfl
  · cases h

/-- A text is decoded to no more than itself, and to itself only without escapes. -/
theorem length_of_decoded? {s : List Char} {t : String} (h : decoded? s = some t) :
    (bytes t.toList).length ≤ (bytes s).length ∧
      ((bytes t.toList).length = (bytes s).length → ¬HasEscape s ∧ t = String.ofList s) := by
  have hbytes : bytes t.toList = percentDecode s := by
    rw [← encode_eq_bytes, encode_of_decode? h]
  rw [hbytes]
  rcases isShortened_percentDecode s with ⟨-, hless⟩ | ⟨hnone, hsame⟩
  · exact ⟨hless.le, fun heq => absurd heq hless.ne⟩
  · refine ⟨hsame ▸ le_rfl, fun _ => ⟨hnone, ?_⟩⟩
    have hdecode : decode? (bytes s) = some t := hsame ▸ h
    rw [← encode_ofList, decode?_encode] at hdecode
    exact (Option.some.inj hdecode).symm

/-- Without escapes a text is decoded to itself. -/
theorem decoded?_of_not_hasEscape {s : List Char} (h : ¬HasEscape s) :
    decoded? s = some (String.ofList s) := by
  rcases isShortened_percentDecode s with ⟨hescape, -⟩ | ⟨-, hsame⟩
  · exact absurd hescape h
  · rw [decoded?, hsame, ← encode_ofList, decode?_encode]

/-! ## User information -/

theorem splitUserInfo_of_notMem {s : List Char} (h : '@' ∉ s) : splitUserInfo s = (none, s) := by
  have hnone : s.reverse.dropWhile (· != '@') = [] := by
    rw [List.dropWhile_eq_nil_iff]
    intro c hc
    simpa using ne_of_mem_of_not_mem (List.mem_reverse.1 hc) h
  rw [splitUserInfo, hnone]

theorem splitUserInfo_append {info place : List Char} (h : '@' ∉ place) :
    splitUserInfo (info ++ '@' :: place) = (some info, place) := by
  have hplace : ∀ c ∈ place.reverse, (c != '@') = true := by
    intro c hc
    simpa using ne_of_mem_of_not_mem (List.mem_reverse.1 hc) h
  have hstop : StopsAt (· != '@') ('@' :: info.reverse) := stopsAt_cons.2 rfl
  have hreverse : (info ++ '@' :: place).reverse = place.reverse ++ '@' :: info.reverse := by simp
  obtain ⟨htake, hdrop⟩ := takeWhile_span hplace hstop
  rw [splitUserInfo, hreverse, htake, hdrop]
  simp

/-- User information is what stands before the last at-sign. -/
theorem splitUserInfo_cases (s : List Char) :
    '@' ∉ s ∧ splitUserInfo s = (none, s) ∨ ∃ info place, s = info ++ '@' :: place ∧
      '@' ∉ place ∧ splitUserInfo s = (some info, place) := by
  by_cases h : '@' ∈ s
  · obtain ⟨after, before, hsplit, hafter⟩ := List.eq_append_cons_of_mem (List.mem_reverse.2 h)
    have hs : s = before.reverse ++ '@' :: after.reverse := by
      rw [← List.reverse_reverse s, hsplit]
      simp
    have hplace : '@' ∉ after.reverse := by simpa using hafter
    exact .inr ⟨_, _, hs, hplace, hs ▸ splitUserInfo_append hplace⟩
  · exact .inl ⟨h, splitUserInfo_of_notMem h⟩

theorem userAndPassword?_of_notMem {user : List Char} (h : ':' ∉ user) :
    userAndPassword? user = (decoded? user).map fun u => (u, none) := by
  have huser : ∀ c ∈ user, (c != ':') = true := by
    intro c hc
    simpa using ne_of_mem_of_not_mem hc h
  rw [userAndPassword?, List.takeWhile_eq_self_iff.2 huser, List.dropWhile_eq_nil_iff.2 huser]
  cases decoded? user <;> rfl

theorem userAndPassword?_append {user password : List Char} (h : ':' ∉ user) :
    userAndPassword? (user ++ ':' :: password) =
      (decoded? user).bind fun u => (decoded? password).map fun p => (u, some p) := by
  have huser : ∀ c ∈ user, (c != ':') = true := by
    intro c hc
    simpa using ne_of_mem_of_not_mem hc h
  have hstop : StopsAt (· != ':') (':' :: password) := stopsAt_cons.2 rfl
  obtain ⟨htake, hdrop⟩ := takeWhile_span huser hstop
  rw [userAndPassword?, htake, hdrop]
  cases decoded? user with
  | none => rfl
  | some u =>
      show ((decoded? password).bind fun p => some (u, some p)) = (decoded? password).map _
      rw [Option.map_eq_bind]
      rfl

/-- The bytes of a user and of a password after a colon. -/
def infoLength (user : String) (password : Option String) : Nat :=
  (bytes user.toList).length + (bytes (password.getD "").toList).length + password.toList.length

/-- What is read from user information is no longer than that, and as long only if everything in it
stands for itself. -/
theorem infoLength_of_userAndPassword? {info : List Char} {user : String}
    {password : Option String} (h : userAndPassword? info = some (user, password)) :
    infoLength user password ≤ (bytes info).length ∧
      (infoLength user password = (bytes info).length →
        ':' ∉ user.toList ∧ ¬HasEscape user.toList ∧ ¬HasEscape (password.getD "").toList) := by
  have hempty : ¬HasEscape [] := by simp [HasEscape]
  by_cases hmem : ':' ∈ info
  · obtain ⟨front, rest, rfl, hfront⟩ := List.eq_append_cons_of_mem hmem
    rw [userAndPassword?_append hfront] at h
    obtain ⟨u, hu, hrest⟩ := Option.bind_eq_some_iff.1 h
    obtain ⟨p, hp, hpair⟩ := Option.map_eq_some_iff.1 hrest
    obtain ⟨rfl, rfl⟩ : u = user ∧ some p = password := by simpa using hpair
    obtain ⟨hule, huself⟩ := length_of_decoded? hu
    obtain ⟨hple, hpself⟩ := length_of_decoded? hp
    have hcolon : (bytes [':']).length = 1 := rfl
    have hinfo : (bytes (front ++ ':' :: rest)).length =
        (bytes front).length + 1 + (bytes rest).length := by
      rw [bytes_append, List.length_append, ← List.singleton_append, bytes_append,
        List.length_append, hcolon, Nat.add_assoc]
    rw [hinfo, infoLength, Option.getD_some, Option.toList_some, List.length_singleton]
    refine ⟨by omega, fun heq => ?_⟩
    obtain ⟨huescape, rfl⟩ := huself (by omega)
    obtain ⟨hpescape, rfl⟩ := hpself (by omega)
    rw [String.toList_ofList, String.toList_ofList]
    exact ⟨hfront, huescape, hpescape⟩
  · rw [userAndPassword?_of_notMem hmem] at h
    obtain ⟨u, hu, hpair⟩ := Option.map_eq_some_iff.1 h
    obtain ⟨rfl, rfl⟩ : u = user ∧ none = password := by simpa using hpair
    obtain ⟨hule, huself⟩ := length_of_decoded? hu
    simp only [infoLength, Option.getD_none, String.toList_empty, bytes_nil, List.length_nil,
      Option.toList_none, Nat.add_zero]
    refine ⟨hule, fun heq => ?_⟩
    obtain ⟨huescape, rfl⟩ := huself heq
    rw [String.toList_ofList]
    exact ⟨hmem, huescape, hempty⟩

/-! ## The authority -/

/-- The text stays within an authority. -/
def IsUnmarked (s : List Char) : Prop := '/' ∉ s ∧ '?' ∉ s ∧ '#' ∉ s
  deriving Decidable

theorem isUnmarked_iff {s : List Char} :
    IsUnmarked s ↔ ∀ c ∈ s, (!endsAuthority false c) = true := by
  have hchar (c : Char) : (!endsAuthority false c) = true ↔ c ≠ '/' ∧ c ≠ '?' ∧ c ≠ '#' := by
    simp [endsAuthority, and_assoc]
  simp only [IsUnmarked, hchar]
  grind

/-- User information, if there is any, and the place after it. -/
def authority (info? : Option (List Char)) (place : List Char) : List Char :=
  info?.elim [] (· ++ ['@']) ++ place

theorem splitUserInfo_authority (info? : Option (List Char)) {place : List Char}
    (h : '@' ∉ place) : splitUserInfo (authority info? place) = (info?, place) := by
  cases info? with
  | none => exact splitUserInfo_of_notMem h
  | some info =>
      rw [authority, Option.elim_some, List.append_assoc, List.singleton_append,
        splitUserInfo_append h]

theorem forall_mem_authority {p : Char → Bool} (hat : p '@' = true) {info? : Option (List Char)}
    {place : List Char} : (∀ c ∈ authority info? place, p c = true) ↔
      (∀ c ∈ info?.getD [], p c = true) ∧ ∀ c ∈ place, p c = true := by
  cases info? with
  | none => simp [authority]
  | some info => simp [authority, or_imp, forall_and, hat]

theorem isUnmarked_authority {info? : Option (List Char)} {place : List Char} :
    IsUnmarked (authority info? place) ↔ IsUnmarked (info?.getD []) ∧ IsUnmarked place := by
  simpa only [isUnmarked_iff] using forall_mem_authority rfl

/-- Who keeps all the bytes of a text keeps the text. -/
theorem takeWhile_of_length_le {p : Char → Bool} {s : List Char}
    (h : (bytes s).length ≤ (bytes (s.takeWhile p)).length) : s.takeWhile p = s := by
  have hsplit : s.takeWhile p ++ s.dropWhile p = s := List.takeWhile_append_dropWhile
  have hlength : (bytes s).length =
      (bytes (s.takeWhile p)).length + (bytes (s.dropWhile p)).length := by
    rw [← List.length_append, ← bytes_append, hsplit]
  cases hrest : s.dropWhile p with
  | nil => rw [hrest, List.append_nil] at hsplit; exact hsplit
  | cons c r =>
      have hpos := length_utf8EncodeChar_pos c
      rw [hrest, bytes_cons, List.length_append] at hlength
      omega

/-- If the place is read as it was written, and user information as long as what was written, then
nothing in the authority was taken for a mark: all of it is read, and as it was written. -/
theorem of_read_authority {info? : Option (List Char)} {place : List Char} {user : String}
    {password : Option String}
    (hread : userAndPassword? ((splitUserInfo ((authority info? place).takeWhile fun c =>
      !endsAuthority false c)).1.getD []) = some (user, password))
    (hplace : (splitUserInfo ((authority info? place).takeWhile fun c =>
      !endsAuthority false c)).2 = place)
    (hnobody : user = "" → info? = none)
    (hlength : (bytes (info?.getD [])).length ≤ infoLength user password) :
    IsUnmarked (authority info? place) ∧ '@' ∉ place ∧
      userAndPassword? (info?.getD []) = some (user, password) := by
  generalize hseen : (authority info? place).takeWhile (fun c => !endsAuthority false c) = seen
    at hread hplace
  -- The sizes decide: what is read is no longer than what is seen.
  have hall (hle : (bytes (authority info? place)).length ≤ (bytes seen).length) :
      seen = authority info? place := by
    rw [← hseen] at hle ⊢
    exact takeWhile_of_length_le hle
  have hunmarked (h : seen = authority info? place) : IsUnmarked (authority info? place) :=
    isUnmarked_iff.2 (List.takeWhile_eq_self_iff.1 (hseen.trans h))
  rcases splitUserInfo_cases seen with ⟨hnone, hsplit⟩ | ⟨info, place', hsome, hafter, hsplit⟩
  · rw [hsplit] at hread hplace
    obtain rfl : seen = place := hplace
    obtain ⟨rfl, rfl⟩ : "" = user ∧ none = password := by
      have hempty : userAndPassword? [] = some ("", none) := rfl
      simpa [hempty] using hread
    obtain rfl : info? = none := hnobody rfl
    exact ⟨hunmarked rfl, hnone, hread⟩
  · rw [hsplit] at hread hplace
    obtain rfl : place' = place := hplace
    have hat : (bytes ['@']).length = 1 := rfl
    obtain ⟨hle, -⟩ := infoLength_of_userAndPassword? hread
    rw [Option.getD_some] at hle
    have hsize : (bytes seen).length = (bytes info).length + (1 + (bytes place').length) := by
      rw [hsome, ← List.singleton_append, bytes_append, bytes_append, List.length_append,
        List.length_append, hat]
    cases info? with
    | none =>
        -- The place alone cannot hold itself and an at-sign.
        have hself : seen = place' := hall (by
          rw [authority, Option.elim_none, List.nil_append]
          omega)
        rw [hself] at hsize
        omega
    | some written =>
        rw [Option.getD_some] at hlength
        have hself : seen = authority (some written) place' := hall (by
          rw [authority, Option.elim_some, bytes_append, bytes_append, List.length_append,
            List.length_append, hat]
          omega)
        have hinfo : info = written := by
          rw [hsome, List.append_cons, authority, Option.elim_some] at hself
          exact List.append_cancel_right (List.append_cancel_right hself)
        exact ⟨hunmarked hself, hafter, hinfo ▸ hread⟩

theorem isSpecial_tcp : isSpecial "tcp" = false := by decide

/-- After the scheme comes the authority, and then the path. -/
theorem parts?_tcp (rest : List Char) :
    let authority := rest.takeWhile fun c => !endsAuthority false c
    let tail := rest.dropWhile fun c => !endsAuthority false c
    let beforeFragment := tail.takeWhile (· != '#')
    parts? ("tcp://".toList ++ rest) =
      (userAndPassword? ((splitUserInfo authority).1.getD [])).map fun (user, password) =>
        { scheme := "tcp", user, password, place := (splitUserInfo authority).2,
          path := beforeFragment.takeWhile (· != '?'), query := queryOf beforeFragment } := by
  have hscheme : splitScheme? ("tcp://".toList ++ rest) = some ("tcp", '/' :: '/' :: rest) := rfl
  have hslashes : skipSlashes? false ('/' :: '/' :: rest) = some rest := rfl
  intro authority tail beforeFragment
  simp only [parts?, hscheme, Option.bind_eq_bind, Option.bind_some, isSpecial_tcp, hslashes,
    Option.map_eq_bind, Option.pure_def, Function.comp_def]
  rfl

end Url

/-! ## The address of the database -/

theorem notMem_of_isIdentifier {s : String} (h : isIdentifier s = true) (mark : Char)
    (hmark : isWordChar mark = false) : mark ∉ s.toList := by
  intro hmem
  have hword := (Sql.isWordChar_of_isIdentifier h).2 mark hmem
  rw [hmark] at hword
  cases hword

/-- What the URL rules read in the address of a database. What is missing is empty. -/
structure DatabaseAddress where
  username : String
  password : String
  endpoint : String
  database : String
  deriving DecidableEq, Repr

/-- Reads the address of a database. -/
def DatabaseAddress.read? (address : String) : Option DatabaseAddress :=
  (Url.parts? address.toList).map fun p =>
    { username := p.user, password := p.password.getD "", endpoint := String.ofList p.place,
      database := String.ofList (p.path.drop 1) }

namespace ClickHouseSettings

variable {s : ClickHouseSettings}

/-- The password that goes with the user name; without a user name there is none. -/
def givenPassword (s : ClickHouseSettings) : String :=
  if s.username = "" then "" else s.password

/-- No character of user name, password and endpoint means anything to the URL rules. -/
@[mk_iff]
structure Literal (s : ClickHouseSettings) : Prop where
  username : Url.IsUnmarked s.username.toList ∧ ':' ∉ s.username.toList ∧
    ¬Url.HasEscape s.username.toList
  password : Url.IsUnmarked s.givenPassword.toList ∧ ¬Url.HasEscape s.givenPassword.toList
  endpoint : Url.IsUnmarked s.endpoint.toList ∧ '@' ∉ s.endpoint.toList

instance : Decidable s.Literal := decidable_of_iff _ (literal_iff s).symm

/-- The user information written, if there is any. -/
def info? (s : ClickHouseSettings) : Option (List Char) :=
  if s.username = "" then none
  else if s.password = "" then some s.username.toList
  else some (s.username.toList ++ ':' :: s.password.toList)

theorem info?_cases (s : ClickHouseSettings) :
    s.username = "" ∧ s.givenPassword = "" ∧ s.info? = none ∨
      s.username ≠ "" ∧ s.givenPassword = "" ∧ s.info? = some s.username.toList ∨
      s.username ≠ "" ∧ s.givenPassword ≠ "" ∧
        s.info? = some (s.username.toList ++ ':' :: s.givenPassword.toList) := by
  unfold info? givenPassword
  split_ifs <;> simp_all

theorem toList_dsn (s : ClickHouseSettings) : s.dsn.toList = "tcp://".toList ++
    (Url.authority s.info? s.endpoint.toList ++
      '/' :: (s.database.toList ++ '?' :: connectionOptions.toList)) := by
  have hcredentials : s.credentials.toList = s.info?.elim [] (· ++ ['@']) := by
    unfold credentials info?
    by_cases huser : s.username = ""
    · simp [huser]
    · by_cases hpassword : s.password = ""
      · simp [huser, hpassword]
      · simp [huser, hpassword]
  simp [dsn, hcredentials, Url.authority, String.toList_append]

theorem forall_mem_info? {p : Char → Bool} (hcolon : p ':' = true) :
    (∀ c ∈ s.info?.getD [], p c = true) ↔
      (∀ c ∈ s.username.toList, p c = true) ∧ ∀ c ∈ s.givenPassword.toList, p c = true := by
  rcases s.info?_cases with ⟨hname, hpassword, hinfo⟩ | ⟨-, hpassword, hinfo⟩ | ⟨-, -, hinfo⟩
  · simp [hname, hpassword, hinfo]
  · simp [hpassword, hinfo]
  · simp [hinfo, or_imp, forall_and, hcolon]

theorem isUnmarked_info? : Url.IsUnmarked (s.info?.getD []) ↔
    Url.IsUnmarked s.username.toList ∧ Url.IsUnmarked s.givenPassword.toList := by
  simpa only [Url.isUnmarked_iff] using forall_mem_info? rfl

/-- No more is written than the user name, and a colon with the password. -/
theorem length_info?_le {password : Option String} (h : password.getD "" = s.givenPassword) :
    (bytes (s.info?.getD [])).length ≤ Url.infoLength s.username password := by
  rw [Url.infoLength, h]
  rcases s.info?_cases with ⟨-, -, hinfo⟩ | ⟨-, -, hinfo⟩ | ⟨-, hpassword, hinfo⟩
  · simp [hinfo]
  · simp [hinfo, Nat.add_assoc]
  · have hcolon : (bytes [':']).length = 1 := rfl
    cases password with
    | none => exact absurd h.symm hpassword
    | some p =>
        rw [hinfo, Option.getD_some, List.append_cons, bytes_append, bytes_append,
          List.length_append, List.length_append, hcolon, Option.toList_some, List.length_singleton]
        omega

/-- Literal user information is read as it was written. -/
theorem Literal.userAndPassword? (h : s.Literal) :
    ∃ password : Option String, password.getD "" = s.givenPassword ∧
      Url.userAndPassword? (s.info?.getD []) = some (s.username, password) := by
  obtain ⟨-, hcolon, huser⟩ := h.username
  have hself := Url.decoded?_of_not_hasEscape huser
  rw [String.ofList_toList] at hself
  rcases s.info?_cases with ⟨hname, hpassword, hinfo⟩ | ⟨-, hpassword, hinfo⟩ | ⟨-, -, hinfo⟩
  · exact ⟨none, hpassword.symm, by rw [hinfo, hname]; rfl⟩
  · exact ⟨none, hpassword.symm, by
      rw [hinfo, Option.getD_some, Url.userAndPassword?_of_notMem hcolon, hself]; rfl⟩
  · exact ⟨some s.givenPassword, rfl, by
      rw [hinfo, Option.getD_some, Url.userAndPassword?_append hcolon, hself,
        Url.decoded?_of_not_hasEscape h.password.2, String.ofList_toList]; rfl⟩

/-- What is read back as it was written was literal. -/
theorem literal_of_read? {database : String}
    (hread : DatabaseAddress.read? s.dsn =
      some ⟨s.username, s.givenPassword, s.endpoint, database⟩) : s.Literal := by
  obtain ⟨p, hparts, haddress⟩ := Option.map_eq_some_iff.1 hread
  have hslash : StopsAt (fun c => !Url.endsAuthority false c)
      ('/' :: (s.database.toList ++ '?' :: connectionOptions.toList)) := stopsAt_cons.2 rfl
  rw [toList_dsn, Url.parts?_tcp, takeWhile_append_of_stopsAt hslash] at hparts
  obtain ⟨⟨user, password⟩, hinfo, rfl⟩ := Option.map_eq_some_iff.1 hparts
  simp only [DatabaseAddress.mk.injEq] at haddress
  obtain ⟨rfl, hpassword, hendpoint, -⟩ := haddress
  have hnobody (h : s.username = "") : s.info? = none := by simp [info?, h]
  have hplace := (String.toList_ofList).symm.trans (congrArg String.toList hendpoint)
  have hlength := length_info?_le hpassword
  obtain ⟨hunmarked, hat, hself⟩ := Url.of_read_authority hinfo hplace hnobody hlength
  obtain ⟨hinfomarks, hplacemarks⟩ := Url.isUnmarked_authority.1 hunmarked
  obtain ⟨husermarks, hpasswordmarks⟩ := isUnmarked_info?.1 hinfomarks
  obtain ⟨hle, hliteral⟩ := Url.infoLength_of_userAndPassword? hself
  obtain ⟨hcolon, huser, hescape⟩ := hliteral (le_antisymm hle hlength)
  exact ⟨⟨husermarks, hcolon, huser⟩, ⟨hpasswordmarks, hpassword ▸ hescape⟩, hplacemarks, hat⟩

/-- An authority that holds no mark of the path ends at the path. -/
theorem parts?_of_isUnmarked {authority : List Char} {database : String}
    (hauthority : Url.IsUnmarked authority) (hdatabase : isIdentifier database = true) :
    Url.parts? ("tcp://".toList ++
        (authority ++ '/' :: (database.toList ++ '?' :: connectionOptions.toList))) =
      (Url.userAndPassword? ((Url.splitUserInfo authority).1.getD [])).map fun (user, password) =>
        { scheme := "tcp", user, password, place := (Url.splitUserInfo authority).2,
          path := '/' :: database.toList, query := some connectionOptions } := by
  have hname {mark : Char} (hmark : isWordChar mark = false) :
      ∀ c ∈ database.toList, (c != mark) = true := by
    intro c hc
    simpa using ne_of_mem_of_not_mem hc (notMem_of_isIdentifier hdatabase mark hmark)
  have hslash : StopsAt (fun c => !Url.endsAuthority false c)
      ('/' :: (database.toList ++ '?' :: connectionOptions.toList)) := stopsAt_cons.2 rfl
  obtain ⟨htake, hdrop⟩ := takeWhile_span (Url.isUnmarked_iff.1 hauthority) hslash
  have hoptions : ('?' :: connectionOptions.toList).all (· != '#') = true := by decide
  have hfragment : ∀ c ∈ '/' :: (database.toList ++ '?' :: connectionOptions.toList),
      (c != '#') = true := by
    intro c hc
    rw [List.mem_cons, List.mem_append] at hc
    rcases hc with rfl | hc | hc
    · rfl
    · exact hname rfl c hc
    · exact List.all_eq_true.1 hoptions c hc
  have hpath : ∀ c ∈ '/' :: database.toList, (c != '?') = true :=
    List.forall_mem_cons.2 ⟨rfl, hname rfl⟩
  have hquestion : StopsAt (· != '?') ('?' :: connectionOptions.toList) := stopsAt_cons.2 rfl
  obtain ⟨hbefore, hquery⟩ := takeWhile_span hpath hquestion
  rw [Url.parts?_tcp, htake, hdrop, List.takeWhile_eq_self_iff.2 hfragment, ← List.cons_append,
    Url.queryOf, hbefore, hquery]
  simp only [String.ofList_toList]

/-- A literal address is taken apart into what it was put together from. -/
theorem Literal.parts?_dsn (h : s.Literal) (hdatabase : isIdentifier s.database = true) :
    ∃ password : Option String, password.getD "" = s.givenPassword ∧ Url.parts? s.dsn.toList =
      some { scheme := "tcp", user := s.username, password, place := s.endpoint.toList,
             path := '/' :: s.database.toList, query := some connectionOptions } := by
  obtain ⟨password, hgiven, hread⟩ := h.userAndPassword?
  have hinfo := isUnmarked_info?.2 ⟨h.username.1, h.password.1⟩
  have hauthority := Url.isUnmarked_authority.2 ⟨hinfo, h.endpoint.1⟩
  refine ⟨password, hgiven, ?_⟩
  rw [toList_dsn, parts?_of_isUnmarked hauthority hdatabase,
    Url.splitUserInfo_authority _ h.endpoint.2, hread]
  rfl

/-- Exactly literal settings are read back from their address. -/
theorem read?_dsn_iff (hdatabase : isIdentifier s.database = true) :
    DatabaseAddress.read? s.dsn = some ⟨s.username, s.givenPassword, s.endpoint, s.database⟩ ↔
      s.Literal := by
  refine ⟨literal_of_read?, fun h => ?_⟩
  obtain ⟨password, hgiven, hparts⟩ := h.parts?_dsn hdatabase
  rw [DatabaseAddress.read?, hparts, Option.map_some, hgiven, String.ofList_toList]
  simp only [List.drop_succ_cons, List.drop_zero, String.ofList_toList]

/-- Nothing in an address is left out unless it comes from user name, password or endpoint. -/
theorem cleaned_dsn (hdatabase : isIdentifier s.database = true)
    (husername : Url.IsUnbroken s.username.toList)
    (hpassword : Url.IsUnbroken s.givenPassword.toList)
    (hendpoint : Url.IsUnbroken s.endpoint.toList) :
    Url.cleaned s.dsn.toList = s.dsn.toList := by
  have hname : Url.IsUnbroken s.database.toList := by
    intro c hc
    have htab := ne_of_mem_of_not_mem hc (notMem_of_isIdentifier hdatabase '\t' rfl)
    have hline := ne_of_mem_of_not_mem hc (notMem_of_isIdentifier hdatabase '\n' rfl)
    have hreturn := ne_of_mem_of_not_mem hc (notMem_of_isIdentifier hdatabase '\r' rfl)
    simp [htab, hline, hreturn]
  have hauthority : Url.IsUnbroken (Url.authority s.info? s.endpoint.toList) :=
    (Url.forall_mem_authority rfl).2 ⟨(forall_mem_info? rfl).2 ⟨husername, hpassword⟩, hendpoint⟩
  have hoptions : Url.IsUnbroken connectionOptions.toList := by decide
  have hlast : ∃ r, connectionOptions.toList.reverse = '4' :: r := ⟨_, rfl⟩
  obtain ⟨r, hr⟩ := hlast
  rw [toList_dsn]
  refine Url.cleaned_eq_self (stopsAt_cons.2 rfl) ?_ ?_
  · have hreverse : StopsAt Url.isOuterBlank ('4' :: r) := stopsAt_cons.2 rfl
    simpa [hr, stopsAt_cons] using hreverse
  · have hscheme : Url.IsUnbroken "tcp://".toList := by decide
    exact List.forall_mem_append.2 ⟨hscheme, List.forall_mem_append.2 ⟨hauthority,
      List.forall_mem_cons.2 ⟨rfl, List.forall_mem_append.2 ⟨hname,
        List.forall_mem_cons.2 ⟨rfl, hoptions⟩⟩⟩⟩⟩

/-- The login that a client reads from a literal address, and where the database is. -/
theorem Literal.login (h : s.Literal) (hdatabase : isIdentifier s.database = true)
    (hclean : Url.cleaned s.dsn.toList = s.dsn.toList) {place : String × Option Nat}
    (hplace : Url.hostAndPort? false s.endpoint.toList = some place) :
    ∃ u, Url.read? s.dsn = some u ∧ (u.host, u.port) = place ∧
      Login.ofUrl? u = some ⟨s.database, if s.username = "" then "default" else s.username,
        s.givenPassword⟩ := by
  have hslash : '/' ∉ s.database.toList := notMem_of_isIdentifier hdatabase '/' rfl
  have hnamed : s.database ≠ "" := by
    simpa using (Sql.isWordChar_of_isIdentifier hdatabase).1
  obtain ⟨password, hgiven, hparts⟩ := h.parts?_dsn hdatabase
  rw [Url.read?_eq, hclean, hparts, Option.bind_some, Url.isSpecial_tcp, hplace, Option.map_some]
  refine ⟨_, rfl, rfl, ?_⟩
  simp [Login.ofUrl?, hslash, hnamed, hgiven]

end ClickHouseSettings

/-- **The login is the configured one.** Whatever settings pass validation, if they are literal, then
what the URL rules read in the address of the database is what was configured: the user name, the
endpoint, the database and, with a user name, the password. A client that finds a host in the
endpoint, and no character that it leaves out, connects there and logs in so. -/
theorem Settings.dsn_gives_login {settings : Settings} (hvalid : settings.validate = .ok ())
    (henabled : settings.exporters.clickhouse.enabled = true)
    (hliteral : settings.exporters.clickhouse.Literal) :
    let s := settings.exporters.clickhouse
    DatabaseAddress.read? s.dsn = some ⟨s.username, s.givenPassword, s.endpoint, s.database⟩ ∧
      ∀ place, Url.hostAndPort? false s.endpoint.toList = some place →
        Url.IsUnbroken s.username.toList → Url.IsUnbroken s.givenPassword.toList →
        Url.IsUnbroken s.endpoint.toList →
        ∃ u, Url.read? s.dsn = some u ∧ (u.host, u.port) = place ∧
          Login.ofUrl? u = some ⟨s.database, if s.username = "" then "default" else s.username,
            s.givenPassword⟩ := by
  intro s
  obtain ⟨-, -, -, -, -, -, hcheck⟩ := Settings.validate_eq_ok.1 hvalid
  obtain ⟨-, -, -, hdatabase, -⟩ := Settings.checkClickHouse_eq_ok.1 (hcheck henabled)
  refine ⟨(ClickHouseSettings.read?_dsn_iff hdatabase).2 hliteral, ?_⟩
  intro place hplace husername hpassword hendpoint
  have hclean := ClickHouseSettings.cleaned_dsn hdatabase husername hpassword hendpoint
  exact hliteral.login hdatabase hclean hplace

/-- Settings of a database at an endpoint. -/
def Settings.ofLogin (username password endpoint : String) : Settings :=
  { exporters := { clickhouse := { enabled := true, endpoint, username, password } } }

/-- A password may hold colons and at-signs. -/
theorem Settings.dsn_gives_login_with_marks :
    let settings := Settings.ofLogin "meter" "p@ss:word" "ch:9000"
    let s := settings.exporters.clickhouse
    settings.validate = .ok () ∧ s.enabled = true ∧ s.Literal ∧
      DatabaseAddress.read? s.dsn = some ⟨"meter", "p@ss:word", "ch:9000", "default"⟩ ∧
      ∃ u, Url.read? s.dsn = some u ∧ (u.host, u.port) = ("ch", some 9000) ∧
        Login.ofUrl? u = some ⟨"default", "meter", "p@ss:word"⟩ := by
  intro settings s
  have hvalid : settings.validate = .ok () := by decide
  have hliteral : s.Literal := by decide +kernel
  have hplace : Url.hostAndPort? false s.endpoint.toList = some ("ch", some 9000) := by decide
  obtain ⟨hread, hclient⟩ := Settings.dsn_gives_login hvalid rfl hliteral
  exact ⟨hvalid, rfl, hliteral, hread, hclient _ hplace (by decide) (by decide) (by decide)⟩

/-- A password without a user name is not written. And what is written is not escaped: a colon ends
the user name, an escape is decoded, and a slash makes the user a host. -/
theorem Settings.dsn_changes_login :
    let read (username password : String) : Option DatabaseAddress :=
      DatabaseAddress.read? (Settings.ofLogin username password "ch:9000").exporters.clickhouse.dsn
    (∀ login ∈ [("", "orphan"), ("a:b", "c"), ("meter", "50%25"), ("meter", "a/b")],
      (Settings.ofLogin login.1 login.2 "ch:9000").validate = .ok ()) ∧
    read "" "orphan" = some ⟨"", "", "ch:9000", "default"⟩ ∧
    read "a:b" "c" = some ⟨"a", "b:c", "ch:9000", "default"⟩ ∧
    read "meter" "50%25" = some ⟨"meter", "50%", "ch:9000", "default"⟩ ∧
    read "meter" "a/b" = some ⟨"", "", "meter:a", "b@ch:9000/default"⟩ := by
  decide +kernel

end Chargeback
