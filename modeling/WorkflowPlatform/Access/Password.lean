import WorkflowPlatform.Foundation.Keyed
import WorkflowPlatform.Foundation.RowOrder
import WorkflowPlatform.Python.LetterCase
import WorkflowPlatform.Store.Tables

/-! # Passwords

A password is hashed after its bytes are cut to the 72 that bcrypt takes, and checked
without the cut. What bcrypt does with a longer password depends on its version: it uses
the first 72 bytes or raises.
-/

namespace WorkflowPlatform

open Python

namespace Security

/-- No byte is zero. -/
def NulFree (bytes : ByteArray) : Prop := 0 ∉ bytes.data.toList

/-- A version of the bcrypt package; `checkpw` is `none` where it raises `ValueError`. -/
structure Bcrypt where
  Salt : Type
  hashpw : ByteArray → Salt → ByteArray
  checkpw : ByteArray → ByteArray → Option Bool
  hashpw_text : ∀ password salt, (hashpw password salt).IsValidUTF8
  checkpw_hashpw : ∀ password salt, password.size ≤ 72 → NulFree password →
    checkpw password (hashpw password salt) = some true
  checkpw_long : ∀ password hashed, 72 < password.size →
    checkpw password hashed = none ∨
      checkpw password hashed = checkpw (password.extract 0 72) hashed

variable (bcrypt : Bcrypt)

/-- `verify_password`. An exception counts as a wrong password. -/
def verifyPassword (plainPassword hashedPassword : String) : Bool :=
  match bcrypt.checkpw plainPassword.toUTF8 hashedPassword.toUTF8 with
  | some correct => correct
  | none => false

/-- The bytes `get_password_hash` hashes. -/
def pwdBytes (password : String) : ByteArray := password.toUTF8.extract 0 72

/-- `get_password_hash`, with the salt that `gensalt` draws. -/
def getPasswordHash (password : String) (salt : bcrypt.Salt) : String :=
  String.fromUTF8 (bcrypt.hashpw (pwdBytes password) salt) (bcrypt.hashpw_text _ _)

/-- `UserCreate`, as far as a login depends on it. -/
structure UserCreate where
  email : String
  password : String
  isActive : Bool
  min_length : 8 ≤ password.length

/-! ## Logging in -/

/-- A user and the stored hash. -/
structure Account where
  user : User
  hashedPassword : String

/-- The account `create_user` stores. -/
def UserCreate.account (userIn : UserCreate) (salt : bcrypt.Salt) (id : Uuid) : Account where
  user := ⟨id, userIn.email, userIn.isActive, []⟩
  hashedPassword := getPasswordHash bcrypt userIn.password salt

/-- `HTTPException`. -/
structure HttpException where
  statusCode : ℕ
  detail : String
  deriving DecidableEq

/-- The answer to a login; the access token is issued for its subject. -/
structure Token where
  subject : Uuid
  role : String
  deriving DecidableEq

/-- The name of the first role. -/
def primaryRole (casing : Lowering) (user : User) : String :=
  match user.roles with
  | role :: _ => casing.lower role.name
  | [] => "user"

/-- `login_access_token`; the query for the account may fail. -/
def loginAccessToken (casing : Lowering) (queryFails : Bool) (order : RowOrder Account)
    (accounts : List Account) (username password : String) : Except HttpException Token :=
  if queryFails then .error ⟨500, "System Error during login"⟩
  else match order.pick (·.user.email = username) accounts with
    | none => .error ⟨400, "Incorrect email or password"⟩
    | some account =>
        if !verifyPassword bcrypt password account.hashedPassword then
          .error ⟨400, "Incorrect email or password"⟩
        else if !account.user.isActive then .error ⟨400, "Inactive user"⟩
        else .ok ⟨account.user.id, primaryRole casing account.user⟩

/-! ## Bytes of a password -/

theorem zero_ne_ofNat {value : ℕ} (hpos : 0 < value) (hbyte : value < 256) :
    (0 : UInt8) ≠ UInt8.ofNat value := by
  intro heq
  have hvalue := congrArg UInt8.toNat heq
  rw [UInt8.toNat_ofNat', Nat.mod_eq_of_lt hbyte] at hvalue
  exact hpos.ne hvalue

/-- Only the character NUL is encoded with a zero byte. -/
theorem eq_nul_of_zero_mem {letter : Char} (hzero : 0 ∈ String.utf8EncodeChar letter) :
    letter = '\x00' := by
  by_cases hone : letter.val.toNat ≤ 127
  · simp only [String.utf8EncodeChar, hone, if_true, List.mem_singleton] at hzero
    by_contra hne
    refine zero_ne_ofNat (Nat.pos_of_ne_zero fun hvalue => ?_) (by omega) hzero
    exact hne (Char.ext (UInt32.toNat_inj.mp hvalue))
  · -- the bytes of longer encodings carry a mark in their high bits
    exfalso
    simp only [String.utf8EncodeChar, hone, if_false] at hzero
    split at hzero
    · simp only [List.mem_cons, List.not_mem_nil, or_false] at hzero
      rcases hzero with hbyte | hbyte <;>
        exact zero_ne_ofNat (by omega) (by omega) hbyte
    · split at hzero
      · simp only [List.mem_cons, List.not_mem_nil, or_false] at hzero
        rcases hzero with hbyte | hbyte | hbyte <;>
          exact zero_ne_ofNat (by omega) (by omega) hbyte
      · simp only [List.mem_cons, List.not_mem_nil, or_false] at hzero
        rcases hzero with hbyte | hbyte | hbyte | hbyte <;>
          exact zero_ne_ofNat (by omega) (by omega) hbyte

theorem nulFree_toUTF8 {password : String} (hnul : '\x00' ∉ password.toList) :
    NulFree password.toUTF8 := by
  obtain ⟨letters, rfl⟩ := password.exists_eq_ofList
  rw [String.toList_ofList] at hnul
  rw [NulFree, String.toUTF8_eq_toByteArray, String.toByteArray_ofList, List.utf8Encode,
    List.data_toByteArray, List.mem_flatMap]
  intro ⟨letter, hletter, hzero⟩
  exact hnul (eq_nul_of_zero_mem hzero ▸ hletter)

theorem nulFree_pwdBytes {password : String} (hnul : '\x00' ∉ password.toList) :
    NulFree (pwdBytes password) := by
  intro hzero
  rw [pwdBytes, ByteArray.data_extract, Array.toList_extract] at hzero
  exact nulFree_toUTF8 hnul (List.mem_of_mem_drop (List.mem_of_mem_take hzero))

theorem size_pwdBytes_le (password : String) : (pwdBytes password).size ≤ 72 := by
  rw [pwdBytes, ByteArray.size_extract]
  omega

/-- Short passwords are hashed whole. -/
theorem pwdBytes_eq {password : String} (hshort : password.utf8ByteSize ≤ 72) :
    pwdBytes password = password.toUTF8 := by
  have hmax : max 72 password.toUTF8.size = 72 := by
    rw [String.toUTF8_eq_toByteArray, String.size_toByteArray]
    omega
  have hwhole := @ByteArray.extract_zero_max_size password.toUTF8 72
  rw [hmax] at hwhole
  exact hwhole

/-! ## Checking what was hashed -/

theorem toUTF8_getPasswordHash (password : String) (salt : bcrypt.Salt) :
    (getPasswordHash bcrypt password salt).toUTF8 = bcrypt.hashpw (pwdBytes password) salt := by
  rw [String.toUTF8_eq_toByteArray]
  rfl

/-- What bcrypt says about a password and its hash. -/
theorem checkpw_getPasswordHash {password : String} (hnul : '\x00' ∉ password.toList)
    (salt : bcrypt.Salt) :
    bcrypt.checkpw password.toUTF8 (getPasswordHash bcrypt password salt).toUTF8 = some true ∨
      72 < password.utf8ByteSize ∧
        bcrypt.checkpw password.toUTF8 (getPasswordHash bcrypt password salt).toUTF8 = none := by
  have hcut := bcrypt.checkpw_hashpw (pwdBytes password) salt (size_pwdBytes_le password)
    (nulFree_pwdBytes hnul)
  rw [toUTF8_getPasswordHash]
  by_cases hshort : password.utf8ByteSize ≤ 72
  · left
    rwa [pwdBytes_eq hshort] at hcut ⊢
  · have hlong : 72 < password.toUTF8.size := Nat.lt_of_not_le hshort
    rcases bcrypt.checkpw_long _ (bcrypt.hashpw (pwdBytes password) salt) hlong with
      hraises | hfirst
    · exact .inr ⟨hlong, hraises⟩
    · left
      rw [hfirst]
      exact hcut

/-- What the answer of bcrypt is taken for. -/
theorem verifyPassword_eq (plainPassword hashedPassword : String) :
    verifyPassword bcrypt plainPassword hashedPassword =
      (bcrypt.checkpw plainPassword.toUTF8 hashedPassword.toUTF8).getD false := by
  unfold verifyPassword
  split
  · next correct hcheck => rw [hcheck, Option.getD_some]
  · next hraises => rw [hraises, Option.getD_none]

/-- Up to 72 bytes a password is verified against its hash. -/
theorem verifyPassword_getPasswordHash {password : String} (hnul : '\x00' ∉ password.toList)
    (hshort : password.utf8ByteSize ≤ 72) (salt : bcrypt.Salt) :
    verifyPassword bcrypt password (getPasswordHash bcrypt password salt) = true := by
  rcases checkpw_getPasswordHash bcrypt hnul salt with hcorrect | ⟨hlong, -⟩
  · rw [verifyPassword_eq, hcorrect, Option.getD_some]
  · omega

/-! ## A version that raises -/

/-- A text that stands for bytes. -/
def hashText (bytes : ByteArray) : String :=
  String.ofList (bytes.data.toList.map fun byte => Char.ofNat byte.toNat)

/-- A version that raises on more than 72 bytes and otherwise compares. -/
def strictBcrypt : Bcrypt where
  Salt := Unit
  hashpw password _ := (hashText password).toUTF8
  checkpw password hashed :=
    if 72 < password.size then none else some (decide (hashed = (hashText password).toUTF8))
  hashpw_text password _ := (hashText password).isValidUTF8
  checkpw_hashpw password _ hshort _ := by
    rw [if_neg (by omega)]
    simp
  checkpw_long password _ hlong := .inl (if_pos hlong)

theorem strictBcrypt_refuses {password : String} (hlong : 72 < password.utf8ByteSize)
    (hashed : String) : verifyPassword strictBcrypt password hashed = false := by
  have hraises : strictBcrypt.checkpw password.toUTF8 hashed.toUTF8 = none := by
    apply if_pos
    rw [String.toUTF8_eq_toByteArray, String.size_toByteArray]
    exact hlong
  rw [verifyPassword_eq, hraises, Option.getD_none]

/-- A password can be verified with every version of bcrypt if and only if it takes at
most 72 bytes. -/
theorem password_verified_iff (userIn : UserCreate) (hnul : '\x00' ∉ userIn.password.toList) :
    (∀ (bcrypt : Bcrypt) (salt : bcrypt.Salt),
      verifyPassword bcrypt userIn.password
        (getPasswordHash bcrypt userIn.password salt) = true) ↔
      userIn.password.utf8ByteSize ≤ 72 := by
  constructor
  · intro hverified
    by_contra hlong
    have hrefused := strictBcrypt_refuses (Nat.lt_of_not_le hlong)
      (getPasswordHash strictBcrypt userIn.password ())
    rw [hverified strictBcrypt ()] at hrefused
    cases hrefused
  · intro hshort bcrypt salt
    exact verifyPassword_getPasswordHash bcrypt hnul hshort salt

/-- A password that fits. -/
def shortPassword : UserCreate := ⟨"ada@example.org", "correct horse", true, by decide⟩

theorem password_verified_iff_short :
    verifyPassword strictBcrypt shortPassword.password
      (getPasswordHash strictBcrypt shortPassword.password ()) = true :=
  (password_verified_iff shortPassword (by decide)).mpr (by decide +kernel) strictBcrypt ()

/-- One letter too many. -/
def longPassword : UserCreate :=
  ⟨"ada@example.org", String.ofList (List.replicate 73 'a'), true, by decide⟩

theorem not_password_verified_long :
    ¬ ∀ (bcrypt : Bcrypt) (salt : bcrypt.Salt),
      verifyPassword bcrypt longPassword.password
        (getPasswordHash bcrypt longPassword.password salt) = true := by
  intro hverified
  have hlong : 72 < longPassword.password.utf8ByteSize := by decide +kernel
  have hrefused := strictBcrypt_refuses hlong
    (getPasswordHash strictBcrypt longPassword.password ())
  rw [hverified strictBcrypt ()] at hrefused
  cases hrefused

end Security

end WorkflowPlatform
