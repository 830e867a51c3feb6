import Atlas.Auth.Credentials
import Atlas.Auth.Issue
import Atlas.Lib.Decimal
import Atlas.Lib.Interleaving

/-!
# Logging in

A password is kept as a text: the name of the algorithm, the number of iterations, the salt
and the derived key in hexadecimal digits, with a dollar sign between them.  Each login first
creates the user of the environment if the table of users has none of that name, then looks up
the user that is presented, and then issues a token if the password derives the key that is
kept.  Any number of logins run at once; between two of their statements on the database others
may run, and the table refuses a second user of one name.

The front end keeps the token as a cookie and lets a request pass by that cookie alone.

PBKDF2 is a parameter.  A statement on the database may fail at any time.  The reading of an
integer is that of texts in ASCII, without the limit on its digits.

## Main definitions

* `hashPassword`, `verifyPassword` — the functions on passwords.
* `Users`, `Call`, `login` — the table of users, a login, and its next statement.
* `middleware` — which requests the front end lets pass.

## Main results

* `verifyPassword_hashPassword` — **a password is taken exactly if it derives the key that is
  kept**.
* `login_answered` — **the first password of a name is its password for good**, whatever logins
  run at once.
* `middleware_login` — **whoever has logged in passes until the token expires**.

## References

`app/auth/passwords.py`, `app/auth/store.py`, `app/api/auth.py`, `frontend/middleware.ts`.
-/

namespace Atlas.Auth

open Json Interleaving Transition

/-! ### Texts -/

/-- `data.hex()` -/
def hex (data : List UInt8) : List Char :=
  data.flatMap fun b => [Nat.digitChar (b.toNat / 16), Nat.digitChar (b.toNat % 16)]

/-- The value of a hexadecimal digit. -/
def hexValue? (c : Char) : Option ℕ :=
  if c.isDigit then some (c.toNat - '0'.toNat)
  else if 'a' ≤ c ∧ c ≤ 'f' then some (10 + (c.toNat - 'a'.toNat))
  else if 'A' ≤ c ∧ c ≤ 'F' then some (10 + (c.toNat - 'A'.toNat))
  else none

/-- A blank in ASCII. -/
def isBlank (c : Char) : Bool := c = ' ' ∨ (9 ≤ c.toNat ∧ c.toNat ≤ 13)

/-- `bytes.fromhex`: blanks are passed over, but not within a byte. -/
def fromHex : List Char → Option (List UInt8)
  | [] => some []
  | [c] => if isBlank c then some [] else none
  | c :: d :: rest =>
      if isBlank c then fromHex (d :: rest)
      else do
        let high ← hexValue? c
        let low ← hexValue? d
        let rest ← fromHex rest
        some (.ofNat (16 * high + low) :: rest)

/-- The digits of a number, with single underscores between them. -/
def digitsOf : List Char → Option (List Char)
  | [] => none
  | [c] => if c.isDigit then some [c] else none
  | c :: d :: cs =>
      if c.isDigit then
        (if d = '_' then digitsOf cs else digitsOf (d :: cs)).map (c :: ·)
      else none

/-- A character that `int` passes over at the ends of a text. -/
def isPadding (c : Char) : Bool :=
  isSpace ⟨c.toNat % 0x110000, Nat.mod_lt _ (Nat.succ_pos _)⟩

/-- `int` of a text. -/
def readInt (cs : List Char) : Option ℤ :=
  let trimmed := (cs.dropWhile isPadding).rdropWhile isPadding
  (digitsOf (Decimal.scanSign trimmed).2).map fun digits =>
    if (Decimal.scanSign trimmed).1 then -(Nat.ofDigitChars 10 digits 0 : ℤ)
    else Nat.ofDigitChars 10 digits 0

/-! ### Passwords -/

/-- `pbkdf2_hmac("sha256", password, salt, iterations)` -/
abbrev Pbkdf2 := List UInt8 → List UInt8 → ℕ → List UInt8

/-- `_ALGORITHM` -/
def algorithmName : List Char := "pbkdf2_sha256".toList

/-- `_ITERATIONS` -/
def defaultIterations : ℕ := 200000

/-- `password.encode()` -/
def utf8 (s : String) : List UInt8 := Unicode.encode (codes s)

variable (pbkdf2 : Pbkdf2)

/-- `hash_password` with the salt that is drawn. -/
def hashPassword (salt : List UInt8) (iterations : ℕ) (password : String) : List Char :=
  ['$'].intercalate
    [algorithmName, Nat.toDigits 10 iterations, hex salt,
      hex (pbkdf2 (utf8 password) salt iterations)]

/-- `verify_password` -/
def verifyPassword (password : String) (encoded : List Char) :
    Except Backend.PyException Bool :=
  match encoded.splitOn '$' with
  | [algorithm, iterationsText, saltHex, hashHex] =>
      match readInt iterationsText, fromHex saltHex with
      | some iterations, some salt =>
          if algorithm ≠ algorithmName then .ok false
          -- out of the reach of what is caught
          else if iterations < 1 ∨ 2147483647 < iterations then .error .valueError
          else
            Backend.compareDigest (hex (pbkdf2 (utf8 password) salt iterations.toNat)) hashHex
      | _, _ => .ok false
  | _ => .ok false

/-! ### A password is read back -/

/-- What is to be known of the digits of a byte. -/
theorem digitChar_hex : ∀ k < 16, hexValue? (Nat.digitChar k) = some k ∧
    isBlank (Nat.digitChar k) = false ∧ Nat.digitChar k ≠ '$' ∧
    Backend.isAscii (Nat.digitChar k) = true := by decide

theorem digits_lt (b : UInt8) : b.toNat / 16 < 16 ∧ b.toNat % 16 < 16 := by
  have := b.toNat_lt
  omega

theorem fromHex_hex (data : List UInt8) : fromHex (hex data) = some data := by
  induction data with
  | nil => rfl
  | cons b data ih =>
    obtain ⟨hhigh, hblank, -, -⟩ := digitChar_hex _ (digits_lt b).1
    obtain ⟨hlow, -, -, -⟩ := digitChar_hex _ (digits_lt b).2
    have hbyte : UInt8.ofNat (16 * (b.toNat / 16) + b.toNat % 16) = b := by
      rw [Nat.div_add_mod, UInt8.ofNat_toNat]
    show fromHex (Nat.digitChar (b.toNat / 16) :: Nat.digitChar (b.toNat % 16) :: hex data) = _
    rw [fromHex, hblank, hhigh, hlow, ih]
    show some (UInt8.ofNat (16 * (b.toNat / 16) + b.toNat % 16) :: data) = some (b :: data)
    rw [hbyte]

theorem hex_injective {data data' : List UInt8} (h : hex data = hex data') : data = data' := by
  have hread := fromHex_hex data
  rwa [h, fromHex_hex, Option.some.injEq, eq_comm] at hread

theorem mem_hex {data : List UInt8} {c : Char} (hc : c ∈ hex data) :
    c ≠ '$' ∧ Backend.isAscii c = true := by
  obtain ⟨b, -, hb⟩ := List.mem_flatMap.mp hc
  rcases List.mem_pair.mp hb with rfl | rfl
  · exact (digitChar_hex _ (digits_lt b).1).2.2
  · exact (digitChar_hex _ (digits_lt b).2).2.2

theorem digitsOf_digits {cs : List Char} (h : Decimal.Digits cs) (hsome : cs ≠ []) :
    digitsOf cs = some cs := by
  induction cs with
  | nil => exact absurd rfl hsome
  | cons c cs ih =>
    have hc : c.isDigit = true := h c (List.mem_cons_self ..)
    match cs with
    | [] => rw [digitsOf, if_pos hc]
    | d :: cs =>
      have hd : d ≠ '_' := by
        rintro rfl
        have := h '_' (by simp)
        cases this
      rw [digitsOf, if_pos hc, if_neg hd,
        ih (fun x hx => h x (List.mem_cons_of_mem _ hx)) (by simp), Option.map_some]

theorem isPadding_digit {c : Char} (hc : c.isDigit = true) : isPadding c = false := by
  have hcode : 48 ≤ c.toNat ∧ c.toNat ≤ 57 := by
    simpa [Char.isDigit_iff_toNat] using hc
  have hsmall : c.toNat % 0x110000 = c.toNat := Nat.mod_eq_of_lt (by omega)
  simp only [isPadding, isSpace, hsmall, decide_eq_false_iff_not]
  omega

theorem readInt_toDigits (n : ℕ) : readInt (Nat.toDigits 10 n) = some (n : ℤ) := by
  have hdigits := Decimal.digits_toDigits n
  have hleft : (Nat.toDigits 10 n).dropWhile isPadding = Nat.toDigits 10 n := by
    refine List.dropWhile_eq_self_iff.mpr fun hpos => ?_
    rw [isPadding_digit (hdigits _ (List.getElem_mem hpos))]
    exact Bool.false_ne_true
  have hright : (Nat.toDigits 10 n).rdropWhile isPadding = Nat.toDigits 10 n := by
    refine List.rdropWhile_eq_self_iff.mpr fun hsome => ?_
    rw [isPadding_digit (hdigits _ (List.getLast_mem hsome))]
    exact Bool.false_ne_true
  have hsign : Decimal.scanSign (Nat.toDigits 10 n) = (false, Nat.toDigits 10 n) := by
    have hsome : Nat.toDigits 10 n ≠ [] := Nat.toDigits_ne_nil
    match hcs : Nat.toDigits 10 n, hsome with
    | c :: cs, _ => exact Decimal.scanSign_digit (hdigits c (hcs ▸ List.mem_cons_self ..))
  rw [readInt, hleft, hright, hsign, digitsOf_digits hdigits Nat.toDigits_ne_nil, Option.map_some,
    if_neg Bool.false_ne_true, Nat.ofDigitChars_ten_toDigits]

theorem splitOn_hashPassword (salt : List UInt8) (iterations : ℕ) (kept : String) :
    (hashPassword pbkdf2 salt iterations kept).splitOn '$' =
      [algorithmName, Nat.toDigits 10 iterations, hex salt,
        hex (pbkdf2 (utf8 kept) salt iterations)] := by
  refine List.splitOn_intercalate '$' ?_ (by simp)
  have hdollar : ('$').isDigit = false := by decide
  have hdigits : '$' ∉ Nat.toDigits 10 iterations := fun h => by
    rw [Decimal.digits_toDigits iterations _ h] at hdollar
    cases hdollar
  have hname : '$' ∉ algorithmName := by decide
  have hhex (data : List UInt8) : '$' ∉ hex data := fun h => (mem_hex h).1 rfl
  simp [hname, hdigits, hhex]

/-- **A password is taken exactly if it derives the key that is kept.** -/
theorem verifyPassword_hashPassword (salt : List UInt8) (iterations : ℕ)
    (hiterations : 1 ≤ iterations ∧ iterations ≤ 2147483647) (password kept : String) :
    verifyPassword pbkdf2 password (hashPassword pbkdf2 salt iterations kept) =
      .ok (decide (pbkdf2 (utf8 password) salt iterations =
        pbkdf2 (utf8 kept) salt iterations)) := by
  have hbounds : ¬((iterations : ℤ) < 1 ∨ 2147483647 < (iterations : ℤ)) := by omega
  have hascii (data : List UInt8) : (hex data).all Backend.isAscii = true :=
    List.all_eq_true.mpr fun c hc => (mem_hex hc).2
  have hkeys (key key' : List UInt8) : (hex key = hex key') = (key = key') :=
    propext ⟨hex_injective, congrArg hex⟩
  rw [verifyPassword, splitOn_hashPassword]
  simp only [readInt_toDigits, fromHex_hex, ne_eq, not_true_eq_false, if_false, if_neg hbounds,
    Int.toNat_natCast, Backend.compareDigest, hascii, and_self, if_true, hkeys]

/-! ### The table of users -/

/-- `ATLAS_DASHBOARD_USER` and `ATLAS_DASHBOARD_PASSWORD`, with their defaults. -/
structure Seed where
  username : String := "admin"
  password : String := "atlas"
  deriving DecidableEq, Repr

structure LoginBody where
  username : String
  password : String
  remember : Bool := false
  deriving DecidableEq, Repr

/-- The name of the user that is to be there. -/
def Seed.name (seed : Seed) : Text := .ofString seed.username

/-- `body.username.strip()` -/
def LoginBody.name (body : LoginBody) : Text := (Text.ofString body.username).strip

/-- The lifetime that is asked for. -/
def LoginBody.ttl (body : LoginBody) : ℤ :=
  if body.remember then Backend.rememberTtlSeconds else Backend.defaultTtlSeconds

/-- A row of the table of users, with what the code reads of it. -/
structure UserRow where
  username : Text
  passwordHash : List Char
  deriving DecidableEq

/-- A user that was created, with the password, which the table does not keep. -/
structure Creation where
  name : Text
  password : String
  salt : List UInt8
  deriving DecidableEq

/-- The table of users, and how its rows came about. -/
structure Users where
  rows : List UserRow := []
  created : List Creation := []
  deriving DecidableEq

/-- `UserStore.get`; the table has one row of a name at most. -/
def Users.get (users : Users) (name : Text) : Option UserRow :=
  users.rows.find? (·.username = name)

/-- The row of a user who is created. -/
def Creation.row (c : Creation) : UserRow where
  username := c.name
  passwordHash := hashPassword pbkdf2 c.salt defaultIterations c.password

/-- `UserStore.create`: none if the table has a user of that name. -/
def Users.create (users : Users) (c : Creation) : Option Users :=
  if (users.get c.name).isSome then none
  else some { rows := users.rows ++ [c.row pbkdf2], created := users.created ++ [c] }

/-! ### A login -/

inductive Answer
  /-- A token, its lifetime, and the time that it is issued at, which the answer leaves out. -/
  | session (token : List Char) (expiresIn issued : ℤ)
  /-- 401 -/
  | unauthorized
  /-- An exception that nobody catches. -/
  | failed
  deriving DecidableEq

/-- The statement on the database that is next. -/
inductive Statement
  /-- The user of the environment is looked up. -/
  | seeding
  /-- The user of the environment is created. -/
  | creating
  /-- The user who is presented is looked up. -/
  | reading
  deriving DecidableEq, Repr

/-- A login. -/
inductive Call
  | idle
  | running (seed : Seed) (body : LoginBody) (next : Statement)
  | answered (seed : Seed) (body : LoginBody) (answer : Answer)
  deriving DecidableEq

inductive Action
  /-- A request arrives, in a process with its environment. -/
  | receive (seed : Seed) (body : LoginBody)
  /-- The next statement, with the salt that is drawn and the time. -/
  | advance (salt : List UInt8) (now : ℤ)
  /-- The database raises. -/
  | fail
  deriving DecidableEq

variable (shared : Shared) (limits : Backend.Limits)

/-- What is answered to a user who is looked up. -/
def answer (users : Users) (body : LoginBody) (now : ℤ) : Answer :=
  match users.get body.name with
  | none => .unauthorized
  | some row =>
      match verifyPassword pbkdf2 body.password row.passwordHash with
      | .error _ => .failed
      | .ok false => .unauthorized
      | .ok true =>
          match Backend.createSessionToken { shared with now := now } limits
              (body.name.map Fin.val) body.ttl with
          | .error _ => .failed
          | .ok token => .session token body.ttl now

/-- `login`, one statement on the database after another. -/
def login : Action → Users → Call → Option (Users × Call)
  | .receive seed body, users, .idle => some (users, .running seed body .seeding)
  | .advance _ _, users, .running seed body .seeding =>
      some (users, .running seed body (if users.get seed.name = none then .creating else .reading))
  | .advance salt _, users, .running seed body .creating =>
      match users.create pbkdf2 ⟨seed.name, seed.password, salt⟩ with
      -- `IntegrityError`
      | none => some (users, .answered seed body .failed)
      | some users' => some (users', .running seed body .reading)
  | .advance _ now, users, .running seed body .reading =>
      some (users, .answered seed body (answer pbkdf2 shared limits users body now))
  | .fail, users, .running seed body _ => some (users, .answered seed body .failed)
  | _, _, _ => none

/-- The logins, and nothing else that touches the table. -/
def logins {ι : Type*} [DecidableEq ι] :
    Joint ι Users Call → Move ι Action Empty → Option (Joint ι Users Call) :=
  next (fun _ a users call => login pbkdf2 shared limits a users call) fun _ _ => none

/-- No user and no login. -/
def noLogin (ι : Type*) : Joint ι Users Call := ⟨{}, fun _ => .idle⟩

/-! ### The middleware -/

/-- `PUBLIC_PATHS` -/
def publicPaths : List (List Char) :=
  ["/login".toList, "/api/auth/login".toList, "/api/auth/logout".toList,
    "/api/auth/session".toList, "/api/backend/health".toList, "/api/backend/ready".toList]

/-- `isPublic` -/
def IsPublic (pathname : List Char) : Prop :=
  ∃ p ∈ publicPaths, pathname = p ∨ p ++ ['/'] <+: pathname

instance (pathname : List Char) : Decidable (IsPublic pathname) :=
  List.decidableBEx (fun p => pathname = p ∨ p ++ ['/'] <+: pathname) publicPaths

inductive Outcome
  /-- The request passes. -/
  | next
  /-- A redirection to the start page. -/
  | home
  /-- 401 -/
  | unauthorized
  /-- A redirection to the login, with the path to come back to. -/
  | loginPage (path : Option (List Char))
  deriving DecidableEq

/-- `middleware`: what is made of a request with a cookie. -/
def middleware (verifier : Shared) (pathname : List Char) (cookie : Option (List Char)) :
    Outcome :=
  let session := Frontend.verifySessionToken verifier cookie
  if IsPublic pathname then
    if pathname = "/login".toList ∧ session.isSome then .home else .next
  else if session = none then
    if "/api/".toList <+: pathname then .unauthorized
    else .loginPage (if pathname = ['/'] then none else some pathname)
  else .next

/-! ### Every answer fits the table -/

/-- The key that is kept of a password. -/
def key (salt : List UInt8) (password : String) : List UInt8 :=
  pbkdf2 (utf8 password) salt defaultIterations

/-- What an answer says of the users who were created: a token, that the password derives the
key of the first password of the name; a refusal of the user of the environment, that it does
not. -/
def Fits (created : List Creation) (seed : Seed) (body : LoginBody) : Answer → Prop
  | .session token ttl issued =>
      (∃ c ∈ created, c.name = body.name ∧
        key pbkdf2 c.salt body.password = key pbkdf2 c.salt c.password) ∧ ttl = body.ttl ∧
      Backend.createSessionToken { shared with now := issued } limits (body.name.map Fin.val) ttl =
        .ok token
  | .unauthorized =>
      body.name = seed.name → ∃ c ∈ created, c.name = body.name ∧
        key pbkdf2 c.salt body.password ≠ key pbkdf2 c.salt c.password
  | .failed => True

/-- The table has the rows of the users who were created, one of each name. -/
structure Users.Kept (users : Users) : Prop where
  rows : users.rows = users.created.map (Creation.row pbkdf2)
  names : (users.created.map Creation.name).Nodup

/-- A login that looks its user up has seen the user of the environment. -/
def Call.Fits (users : Users) : Call → Prop
  | .running seed _ .reading => ∃ c ∈ users.created, c.name = seed.name
  | .answered seed body answer => Auth.Fits pbkdf2 shared limits users.created seed body answer
  | _ => True

variable {pbkdf2 shared limits}

theorem Fits.mono {created created' : List Creation} (hle : created ⊆ created') {seed : Seed}
    {body : LoginBody} : ∀ {answer : Answer}, Fits pbkdf2 shared limits created seed body answer →
      Fits pbkdf2 shared limits created' seed body answer
  | .session _ _ _, ⟨⟨c, hc, h⟩, hrest⟩ => ⟨⟨c, hle hc, h⟩, hrest⟩
  | .unauthorized, h => fun hname => by
      obtain ⟨c, hc, h⟩ := h hname
      exact ⟨c, hle hc, h⟩
  | .failed, _ => trivial

theorem Call.Fits.mono {users users' : Users} (hle : users.created ⊆ users'.created) :
    ∀ {call : Call}, call.Fits pbkdf2 shared limits users → call.Fits pbkdf2 shared limits users'
  | .idle, _ | .running _ _ .seeding, _ | .running _ _ .creating, _ => trivial
  | .running _ _ .reading, ⟨c, hc, h⟩ => ⟨c, hle hc, h⟩
  | .answered _ _ _, h => Auth.Fits.mono hle h

/-- A user is found by the record of the creation. -/
theorem Users.Kept.get {users : Users} (h : users.Kept pbkdf2) (name : Text) :
    users.get name = (users.created.find? (·.name = name)).map (Creation.row pbkdf2) := by
  rw [Users.get, h.rows, List.find?_map]
  rfl

/-- The answer to a user who is looked up fits. -/
theorem Users.Kept.answer {users : Users} (h : users.Kept pbkdf2) {seed : Seed}
    (hseed : ∃ c ∈ users.created, c.name = seed.name) (body : LoginBody) (now : ℤ) :
    Fits pbkdf2 shared limits users.created seed body
      (answer pbkdf2 shared limits users body now) := by
  have hverify (c : Creation) : verifyPassword pbkdf2 body.password (c.row pbkdf2).passwordHash =
      .ok (decide (key pbkdf2 c.salt body.password = key pbkdf2 c.salt c.password)) :=
    verifyPassword_hashPassword pbkdf2 c.salt defaultIterations (by decide) body.password c.password
  rw [Auth.answer, h.get]
  cases hfind : users.created.find? (·.name = body.name) with
  | none =>
    intro hname
    obtain ⟨c, hc, hcname⟩ := hseed
    exact absurd (decide_eq_true (hcname.trans hname.symm)) (List.find?_eq_none.mp hfind c hc)
  | some c =>
    have hc : c ∈ users.created := List.mem_of_find?_eq_some hfind
    have hname : c.name = body.name := by simpa using List.find?_some hfind
    rw [Option.map_some]
    simp only [hverify]
    by_cases hkey : key pbkdf2 c.salt body.password = key pbkdf2 c.salt c.password
    · simp only [hkey, decide_true]
      cases htoken : Backend.createSessionToken { shared with now := now } limits
        (body.name.map Fin.val) body.ttl with
      | error e => trivial
      | ok token => exact ⟨⟨c, hc, hname, hkey⟩, rfl, htoken⟩
    · simp only [hkey, decide_false]
      exact fun _ => ⟨c, hc, hname, hkey⟩

/-- What a statement does to the table: nothing, or a user is created whose name is new. -/
theorem create_spec {users users' : Users} {c : Creation} (h : users.Kept pbkdf2)
    (hcreate : users.create pbkdf2 c = some users') :
    users'.Kept pbkdf2 ∧ users.created ⊆ users'.created ∧ c ∈ users'.created := by
  simp only [Users.create, Option.ite_none_left_eq_some, Option.some.injEq] at hcreate
  obtain ⟨hnew, rfl⟩ := hcreate
  have hnew : users.created.find? (·.name = c.name) = none := by
    simpa [h.get] using hnew
  refine ⟨⟨by simp [h.rows], ?_⟩, List.subset_append_left .., by simp⟩
  rw [List.map_append, List.nodup_append]
  refine ⟨h.names, List.nodup_singleton _, fun name hmem name' hmem' hsame => ?_⟩
  obtain ⟨c', hc', rfl⟩ := List.mem_map.mp hmem
  rw [List.map_singleton, List.mem_singleton] at hmem'
  exact List.find?_eq_none.mp hnew c' hc' (decide_eq_true (hsame.trans hmem'))

/-- What a login does in one step keeps the table and fits it. -/
theorem login_spec {action : Action} {users users' : Users} {call call' : Call}
    (h : users.Kept pbkdf2) (hcall : call.Fits pbkdf2 shared limits users)
    (hstep : login pbkdf2 shared limits action users call = some (users', call')) :
    users'.Kept pbkdf2 ∧ users.created ⊆ users'.created ∧
      call'.Fits pbkdf2 shared limits users' := by
  cases call with
  | idle =>
    cases action with
    | receive seed body =>
      obtain ⟨rfl, rfl⟩ := Prod.mk.inj (Option.some.inj hstep)
      exact ⟨h, List.Subset.refl _, trivial⟩
    | advance salt now => cases hstep
    | fail => cases hstep
  | running seed body statement =>
    cases action with
    | receive _ _ => cases hstep
    | fail =>
      obtain ⟨rfl, rfl⟩ := Prod.mk.inj (Option.some.inj hstep)
      exact ⟨h, List.Subset.refl _, trivial⟩
    | advance salt now =>
      cases statement with
      | seeding =>
        obtain ⟨rfl, rfl⟩ := Prod.mk.inj (Option.some.inj hstep)
        refine ⟨h, List.Subset.refl _, ?_⟩
        split
        · trivial
        · -- The user of the environment is there.
          rename_i hfound
          rw [h.get, Option.map_eq_none_iff, List.find?_eq_none] at hfound
          push Not at hfound
          obtain ⟨c, hc, hname⟩ := hfound
          exact ⟨c, hc, of_decide_eq_true hname⟩
      | creating =>
        rw [login] at hstep
        split at hstep
        · obtain ⟨rfl, rfl⟩ := Prod.mk.inj (Option.some.inj hstep)
          exact ⟨h, List.Subset.refl _, trivial⟩
        · rename_i created hcreate
          obtain ⟨rfl, rfl⟩ := Prod.mk.inj (Option.some.inj hstep)
          obtain ⟨hkept, hle, hmem⟩ := create_spec h hcreate
          exact ⟨hkept, hle, _, hmem, rfl⟩
      | reading =>
        obtain ⟨rfl, rfl⟩ := Prod.mk.inj (Option.some.inj hstep)
        exact ⟨h, List.Subset.refl _, h.answer hcall body now⟩
  | answered _ _ _ => cases action <;> cases hstep

variable {ι : Type*} [DecidableEq ι] {s : Joint ι Users Call}

/-- Every login fits the table in every state reached. -/
theorem logins_fit (h : Reachable (logins pbkdf2 shared limits) (fun _ _ => True) (noLogin ι) s) :
    Holds (Users.Kept pbkdf2) (fun _ users call => call.Fits pbkdf2 shared limits users)
      (fun _ _ _ _ => True) s := by
  refine Holds.reachable h ⟨⟨rfl, List.nodup_nil⟩, fun _ => trivial, fun _ => trivial⟩ ?_ ?_
  · intro s i action users call hs _ hstep
    obtain ⟨hkept, hle, hfits⟩ := login_spec hs.shared (hs.each i) hstep
    exact ⟨hkept, hfits, fun j _ => (hs.each j).mono hle, fun _ _ => ⟨trivial, trivial⟩⟩
  · intro _ e
    exact e.elim

/-- **The first password of a name is its password for good.**  Whatever logins run at once and
wherever they fail, a name is created once; a login that gets a token has presented a password
that derives the key of that creation, and one for the user of the environment that is refused
has not. -/
theorem login_answered
    (h : Reachable (logins pbkdf2 shared limits) (fun _ _ => True) (noLogin ι) s) :
    (s.shared.created.map Creation.name).Nodup ∧
      ∀ i seed body answer, s.locals i = .answered seed body answer →
        Fits pbkdf2 shared limits s.shared.created seed body answer := by
  have hfit := logins_fit h
  refine ⟨hfit.shared.names, fun i seed body answer hi => ?_⟩
  have hcall := hfit.each i
  rwa [hi] at hcall

/-- The key that PBKDF2 derives of `atlas` with the salt of the bytes from 0 to 15. -/
def atlasKey : List UInt8 :=
  [147, 234, 194, 197, 103, 54, 57, 7, 147, 174, 85, 11, 44, 44, 251, 240, 146, 242, 89, 59, 249,
    62, 57, 44, 152, 226, 171, 131, 20, 15, 105, 248]

/-- The key that it derives of `Atlas`. -/
def capitalKey : List UInt8 :=
  [166, 165, 222, 221, 106, 97, 79, 24, 12, 180, 220, 81, 0, 144, 131, 230, 146, 4, 37, 197, 212,
    162, 250, 162, 226, 99, 197, 193, 43, 134, 152, 10]

/-- PBKDF2 on these two passwords and that salt. -/
def atlasPbkdf2 : Pbkdf2 := fun password _ _ =>
  if password = utf8 "atlas" then atlasKey else capitalKey

/-- Two first logins at once, of which the second one fails on the user that the first one has
created, and then a login with another password. -/
def adminRun : List (Move (Fin 3) Action Empty) :=
  let salt := (List.range 16).map UInt8.ofNat
  [.act 0 (.receive {} { username := " admin", password := "atlas", remember := true }),
    .act 1 (.receive {} { username := "admin", password := "Atlas" }),
    .act 0 (.advance salt 0), .act 1 (.advance salt 0), .act 0 (.advance salt 0),
    .act 1 (.advance salt 0), .act 0 (.advance salt 1797408000),
    .act 2 (.receive {} { username := "admin", password := "Atlas" }),
    .act 2 (.advance salt 0), .act 2 (.advance salt 0)]

/-- The token of the first login. -/
def adminToken : List Char := adminBody ++ '.' :: Backend.sign adminShared adminBody

/-- What that run has come to: the first login has its token, the second one has failed, and the
third one has been refused. -/
theorem exists_adminRun : ∃ s, Reachable (logins atlasPbkdf2 adminShared defaultLimits)
    (fun _ _ => True) (noLogin (Fin 3)) s ∧
      s.locals 0 = .answered {} { username := " admin", password := "atlas", remember := true }
        (.session adminToken Backend.rememberTtlSeconds 1797408000) ∧
      s.locals 1 = .answered {} { username := "admin", password := "Atlas" } .failed ∧
      s.locals 2 = .answered {} { username := "admin", password := "Atlas" } .unauthorized := by
  refine exists_reachable adminRun ?_ ?_ <;> decide +kernel

/-- After that run there is one user, who has the password of the first login. -/
theorem login_answered_admin : ∃ s, Reachable (logins atlasPbkdf2 adminShared defaultLimits)
    (fun _ _ => True) (noLogin (Fin 3)) s ∧ (s.shared.created.map Creation.name).Nodup ∧
      (∃ c ∈ s.shared.created, c.name = .ofString "admin" ∧
        key atlasPbkdf2 c.salt "atlas" = key atlasPbkdf2 c.salt c.password) ∧
      ∃ c ∈ s.shared.created, c.name = .ofString "admin" ∧
        key atlasPbkdf2 c.salt "Atlas" ≠ key atlasPbkdf2 c.salt c.password := by
  obtain ⟨s, hs, hfirst, -, hthird⟩ := exists_adminRun
  obtain ⟨hnames, hfits⟩ := login_answered hs
  obtain ⟨⟨c, hc, hname, hkey⟩, -, -⟩ := hfits 0 _ _ _ hfirst
  exact ⟨s, hs, hnames, ⟨c, hc, hname.trans (by decide), hkey⟩,
    hfits 2 _ _ _ hthird (by decide)⟩

/-! ### The token is let pass -/

/-- The code points of a text of characters. -/
theorem isScalar_name (body : LoginBody) : ∀ n ∈ body.name.map Fin.val, Unicode.IsScalar n := by
  intro n hn
  obtain ⟨p, hp, rfl⟩ := List.mem_map.mp hn
  have hp : p ∈ Text.ofString body.username :=
    (List.dropWhile_sublist _).subset ((List.rdropWhile_prefix isSpace _).subset hp)
  obtain ⟨c, -, rfl⟩ := List.mem_map.mp hp
  have hvalid : c.toNat < 0xD800 ∨ 0xDFFF < c.toNat ∧ c.toNat < 0x110000 := c.valid
  have hcode : (Fin.ofNat 0x110000 c.toNat).val = c.toNat := Nat.mod_eq_of_lt (by omega)
  rw [hcode, Unicode.IsScalar]
  omega

theorem whole_of_isScalar {text : List ℕ} (h : ∀ n ∈ text, Unicode.IsScalar n) : Whole text := by
  refine ⟨fun n hn => (h n hn).1, List.Pairwise.isChain ?_⟩
  refine List.pairwise_of_forall_mem_list fun high hhigh _ _ => ?_
  rintro ⟨hpair, -⟩
  have hscalar := (h high hhigh).2
  unfold Unicode.IsHigh at hpair
  omega

/-- **Whoever has logged in passes until the token expires**, to every page, wherever the secret
is shared; a page that is not public is passed to nobody with the token later. -/
theorem middleware_login
    (h : Reachable (logins pbkdf2 shared limits) (fun _ _ => True) (noLogin ι) s) {i : ι}
    {seed : Seed} {body : LoginBody} {token : List Char} {ttl issued : ℤ}
    (hi : s.locals i = .answered seed body (.session token ttl issued)) {verifier : Shared}
    (hshared : verifier.hmac = shared.hmac)
    (hdouble : Binary64.IsDouble ((issued + body.ttl : ℤ) : ℚ)) {pathname : List Char}
    (hpath : ¬IsPublic pathname) :
    middleware verifier pathname (some token) = .next ↔
      body.name ≠ [] ∧ verifier.now ≤ issued + body.ttl := by
  have hcall := (logins_fit h).each i
  rw [hi] at hcall
  obtain ⟨-, rfl, htoken⟩ := hcall
  obtain ⟨-, rfl⟩ := Backend.createSessionToken_eq_ok htoken
  have hissuer : verifier.hmac = ({ shared with now := issued } : Shared).hmac := hshared
  have hverify := Frontend.verifySessionToken_tokenOf Backend.legible_raw
    (whole_of_isScalar (isScalar_name body)) hissuer hdouble
  have hname : body.name.map Fin.val ≠ [] ↔ body.name ≠ [] := List.map_eq_nil_iff.not
  rw [middleware, hverify, if_neg hpath]
  by_cases hlive : body.name.map Fin.val ≠ [] ∧ verifier.now ≤ issued + body.ttl
  · simp [hlive, hname.mp hlive.1]
  · have hlive' : ¬(body.name ≠ [] ∧ verifier.now ≤ issued + body.ttl) := by rwa [hname] at hlive
    simp only [if_neg hlive, if_true, hlive', iff_false]
    split <;> exact nofun

/-- The first login of that run passes with the token in the second in which it expires, and not
in the next one. -/
theorem middleware_login_admin :
    middleware { adminShared with now := 1800000000 } "/orders".toList (some adminToken) = .next ∧
      middleware { adminShared with now := 1800000001 } "/orders".toList (some adminToken) ≠
        .next := by
  obtain ⟨s, hs, hfirst, -, -⟩ := exists_adminRun
  have hpath : ¬IsPublic "/orders".toList := by decide
  have hdouble := Binary64.isDouble_intCast (z := 1800000000) (by decide)
  have hnow (now : ℤ) := middleware_login hs hfirst
    (show ({ adminShared with now := now } : Shared).hmac = adminShared.hmac from rfl) hdouble hpath
  exact ⟨(hnow 1800000000).mpr (by decide), (hnow 1800000001).not.mpr (by decide)⟩

end Atlas.Auth
