import BcIo.Platform
import Mathlib.Data.List.Nodup

/-!
# Names and ids of users and groups

`bc_io_perm_resolve_user_id`, `bc_io_perm_resolve_group_id` and the two ways
back.  A name that comes with its length is handed on as a C string, and a
record comes back through a buffer of fixed size.
-/

namespace BcIo.Perm

/-! ## The account databases -/

/-- A user or a group, and the room that its record takes. -/
structure Account where
  name : List Byte
  id : UInt32
  recordSize : Nat
  deriving DecidableEq, Repr

/-- The users or the groups of a system. -/
structure Database where
  accounts : List Account
  noNul : ∀ account ∈ accounts, (0 : Byte) ∉ account.name
  uniqueNames : (accounts.map Account.name).Nodup
  uniqueIds : (accounts.map Account.id).Nodup

/-- What a reentrant lookup gives: its error, or what `*result` points at. -/
inductive Lookup where
  | failed (error : Errno)
  | missing
  | found (account : Account)
  deriving DecidableEq, Repr

/-- The lookup of an account that goes into a buffer of some size. -/
def Database.lookup (database : Database) (wanted : Account → Bool)
    (bufferSize : Nat) : Lookup :=
  match database.accounts.find? wanted with
  | none => .missing
  | some account =>
      if bufferSize < account.recordSize then .failed Errno.erange
      else .found account

/-- `while (source[length] != '\0')`: the length of the C string in a memory. -/
def stringLength : List Byte → Nat
  | [] => 0
  | byte :: rest => if byte = 0 then 0 else stringLength rest + 1

/-- The C string in a memory. -/
def stringAt (memory : List Byte) : List Byte :=
  memory.take (stringLength memory)

/-- The lookup of the account that has a C string as its name. -/
def Database.lookupName (database : Database) (text : List Byte) :
    Nat → Lookup :=
  database.lookup fun account => account.name = stringAt text

/-- The lookup of the account that has an id. -/
def Database.lookupId (database : Database) (id : UInt32) : Nat → Lookup :=
  database.lookup fun account => account.id = id

/-- `getpwnam_r`. -/
def getpwnamR (users : Database) : List Byte → Nat → Lookup :=
  users.lookupName

/-- `getgrnam_r`. -/
def getgrnamR (groups : Database) : List Byte → Nat → Lookup :=
  groups.lookupName

/-- `getpwuid_r`. -/
def getpwuidR (users : Database) : UInt32 → Nat → Lookup :=
  users.lookupId

/-- `getgrgid_r`. -/
def getgrgidR (groups : Database) : UInt32 → Nat → Lookup :=
  groups.lookupId

/-! ## Resolution -/

/-- `sizeof(buffer)`. -/
def recordCapacity : Nat := 1024

/-- `sizeof(zero_terminated)`. -/
def nameCapacity : Nat := 256

/--
`bc_io_perm_copy_string`: the characters it has copied, whose number is
`*out_length`, or none when it returns `false`.
-/
def copyString (source : List Byte) (capacity : Nat) : Option (List Byte) :=
  if capacity < stringLength source then none
  else some (source.take (stringLength source))

/--
`bc_io_perm_copy_to_zero_terminated`: what it has written, or none when it
returns `false`.
-/
def copyToZeroTerminated (source : List Byte) (capacity : Nat) :
    Option (List Byte) :=
  if capacity < sizeAdd source.length 1 then none
  else some (source ++ [0])

/-- Both ways from an id to a name: what is copied to `output`. -/
def resolveName (lookup : UInt32 → Nat → Lookup) (id : UInt32)
    (capacity : Nat) : Option (List Byte) :=
  match lookup id recordCapacity with
  | .failed _ => none
  | .missing => none
  | .found account => copyString (account.name ++ [0]) capacity

/-- `bc_io_perm_resolve_user_name`. -/
def resolveUserName (users : Database) (userId : UInt32) (capacity : Nat) :
    Option (List Byte) :=
  resolveName (getpwuidR users) userId capacity

/-- `bc_io_perm_resolve_group_name`. -/
def resolveGroupName (groups : Database) (groupId : UInt32)
    (capacity : Nat) : Option (List Byte) :=
  resolveName (getgrgidR groups) groupId capacity

/-- Both ways from a name to an id: what is stored when `true` is returned. -/
def resolveId (lookup : List Byte → Nat → Lookup) (name : List Byte) :
    Option UInt32 := do
  let zeroTerminated ← copyToZeroTerminated name nameCapacity
  match lookup zeroTerminated recordCapacity with
  | .failed _ => none
  | .missing => none
  | .found account => some account.id

/-- `bc_io_perm_resolve_user_id`. -/
def resolveUserId (users : Database) (name : List Byte) : Option UInt32 :=
  resolveId (getpwnamR users) name

/-- `bc_io_perm_resolve_group_id`. -/
def resolveGroupId (groups : Database) (name : List Byte) : Option UInt32 :=
  resolveId (getgrnamR groups) name

/-! ## C strings -/

theorem stringLength_terminated {name : List Byte}
    (noNul : (0 : Byte) ∉ name) (rest : List Byte) :
    stringLength (name ++ 0 :: rest) = name.length := by
  induction name with
  | nil => rfl
  | cons byte name induction =>
      simp only [List.mem_cons, not_or] at noNul
      rw [List.cons_append, stringLength, if_neg (Ne.symm noNul.1),
        induction noNul.2, List.length_cons]

theorem stringAt_terminated {name : List Byte} (noNul : (0 : Byte) ∉ name)
    (rest : List Byte) : stringAt (name ++ 0 :: rest) = name := by
  rw [stringAt, stringLength_terminated noNul, List.take_left]

theorem copyString_iff {name text : List Byte} (noNul : (0 : Byte) ∉ name)
    {capacity : Nat} :
    copyString (name ++ [0]) capacity = some text ↔
      name.length ≤ capacity ∧ text = name := by
  rw [copyString, stringLength_terminated noNul, List.take_left,
    Option.ite_none_left_eq_some, Nat.not_lt, Option.some.injEq]
  exact and_congr_right fun _ => eq_comm

theorem copyToZeroTerminated_of_short {name : List Byte}
    (short : name.length ≤ 255) :
    copyToZeroTerminated name nameCapacity = some (name ++ [0]) := by
  have fits : sizeAdd name.length 1 = name.length + 1 :=
    Foundation.MachineWord.wordAdd_of_lt (by
      unfold Foundation.MachineWord.wordLimit
      omega)
  rw [copyToZeroTerminated, fits, nameCapacity, if_neg (by omega)]

/-! ## Lookups -/

namespace Database

variable {database : Database}

theorem eq_of_name {left right : Account}
    (leftMember : left ∈ database.accounts)
    (rightMember : right ∈ database.accounts)
    (same : left.name = right.name) : left = right :=
  List.inj_on_of_nodup_map database.uniqueNames leftMember rightMember same

theorem eq_of_id {left right : Account}
    (leftMember : left ∈ database.accounts)
    (rightMember : right ∈ database.accounts)
    (same : left.id = right.id) : left = right :=
  List.inj_on_of_nodup_map database.uniqueIds leftMember rightMember same

/-- A lookup that fits one account finds it if its record fits the buffer. -/
theorem lookup_found_iff {wanted : Account → Bool}
    (unique : ∀ left ∈ database.accounts, ∀ right ∈ database.accounts,
      wanted left = true → wanted right = true → left = right)
    {bufferSize : Nat} {account : Account} :
    database.lookup wanted bufferSize = .found account ↔
      account ∈ database.accounts ∧ wanted account = true ∧
        account.recordSize ≤ bufferSize := by
  unfold lookup
  constructor
  · intro found
    split at found
    · cases found
    · rename_i other isOther
      split at found
      · cases found
      · rename_i fits
        cases found
        exact ⟨List.mem_of_find?_eq_some isOther,
          List.find?_some isOther, Nat.le_of_not_lt fits⟩
  · rintro ⟨member, isWanted, fits⟩
    cases search : database.accounts.find? wanted with
    | none =>
        have refused := List.find?_eq_none.mp search account member
        exact absurd isWanted refused
    | some other =>
        have same : other = account :=
          unique other (List.mem_of_find?_eq_some search) account member
            (List.find?_some search) isWanted
        rw [same]
        exact if_neg (Nat.not_lt.mpr fits)

theorem lookupName_iff {text : List Byte} {bufferSize : Nat}
    {account : Account} :
    database.lookupName text bufferSize = .found account ↔
      account ∈ database.accounts ∧ account.name = stringAt text ∧
        account.recordSize ≤ bufferSize := by
  rw [lookupName, lookup_found_iff, decide_eq_true_iff]
  intro left leftMember right rightMember isLeft isRight
  exact eq_of_name leftMember rightMember
    ((of_decide_eq_true isLeft).trans (of_decide_eq_true isRight).symm)

theorem lookupId_iff {id : UInt32} {bufferSize : Nat} {account : Account} :
    database.lookupId id bufferSize = .found account ↔
      account ∈ database.accounts ∧ account.id = id ∧
        account.recordSize ≤ bufferSize := by
  rw [lookupId, lookup_found_iff, decide_eq_true_iff]
  intro left leftMember right rightMember isLeft isRight
  exact eq_of_id leftMember rightMember
    ((of_decide_eq_true isLeft).trans (of_decide_eq_true isRight).symm)

/-- A short name gives the id of the account that its C string names. -/
theorem resolveId_iff {name : List Byte} (short : name.length ≤ 255)
    {id : UInt32} :
    resolveId database.lookupName name = some id ↔
      ∃ account ∈ database.accounts,
        account.name = stringAt (name ++ [0]) ∧
          account.recordSize ≤ recordCapacity ∧ account.id = id := by
  rw [resolveId, copyToZeroTerminated_of_short short, Option.bind_eq_bind,
    Option.bind_some]
  constructor
  · intro resolved
    split at resolved
    · cases resolved
    · cases resolved
    · rename_i account found
      cases resolved
      rcases lookupName_iff.mp found with ⟨member, named, fits⟩
      exact ⟨account, member, named, fits, rfl⟩
  · rintro ⟨account, member, named, fits, rfl⟩
    rw [lookupName_iff.mpr ⟨member, named, fits⟩]

/-- An id gives the name of its account. -/
theorem resolveName_iff {id : UInt32} {capacity : Nat} {text : List Byte} :
    resolveName database.lookupId id capacity = some text ↔
      ∃ account ∈ database.accounts,
        account.id = id ∧ account.recordSize ≤ recordCapacity ∧
          account.name.length ≤ capacity ∧ text = account.name := by
  unfold resolveName
  constructor
  · intro resolved
    split at resolved
    · cases resolved
    · cases resolved
    · rename_i account found
      rcases lookupId_iff.mp found with ⟨member, identified, fits⟩
      exact ⟨account, member, identified, fits,
        (copyString_iff (database.noNul account member)).mp resolved⟩
  · rintro ⟨account, member, identified, fits, copied⟩
    rw [lookupId_iff.mpr ⟨member, identified, fits⟩]
    exact (copyString_iff (database.noNul account member)).mpr copied

/-! ## Exact lookup -/

/-- A name gives an id exactly if an account has both. -/
def ExactId (database : Database) (name : List Byte)
    (resolved : Option UInt32) : Prop :=
  ∀ id, resolved = some id ↔
    ∃ account ∈ database.accounts, account.name = name ∧ account.id = id

/-- An id gives a text exactly if it is the name of its account and fits. -/
def ExactName (database : Database) (id : UInt32) (capacity : Nat)
    (resolved : Option (List Byte)) : Prop :=
  ∀ text, resolved = some text ↔
    ∃ account ∈ database.accounts,
      account.id = id ∧ account.name.length ≤ capacity ∧ text = account.name

/--
The account named by the bytes before the first NUL, if there is one, has a
record that fits the buffer exactly if there is no NUL.
-/
def NameAdmits (database : Database) (name : List Byte) : Prop :=
  ∀ account ∈ database.accounts, account.name = stringAt (name ++ [0]) →
    (account.recordSize ≤ recordCapacity ↔ (0 : Byte) ∉ name)

/-- The account of an id has a record that fits, or a name that does not. -/
def IdAdmits (database : Database) (id : UInt32) (capacity : Nat) : Prop :=
  ∀ account ∈ database.accounts, account.id = id →
    account.name.length ≤ capacity → account.recordSize ≤ recordCapacity

theorem exactId_iff {name : List Byte} (short : name.length ≤ 255) :
    database.ExactId name (resolveId database.lookupName name) ↔
      database.NameAdmits name := by
  constructor
  · intro exact account member named
    constructor
    · -- what has been found has a name without NUL
      intro fits
      have resolved := (resolveId_iff short).mpr
        ⟨account, member, named, fits, rfl⟩
      rcases (exact account.id).mp resolved with
        ⟨other, otherMember, rfl, _⟩
      exact database.noNul other otherMember
    · intro noNul
      have own : account.name = name :=
        named.trans (stringAt_terminated noNul [])
      have resolved := (exact account.id).mpr ⟨account, member, own, rfl⟩
      rcases (resolveId_iff short).mp resolved with
        ⟨other, otherMember, otherNamed, fits, _⟩
      rwa [eq_of_name otherMember member (otherNamed.trans named.symm)]
        at fits
  · intro admits id
    rw [resolveId_iff short]
    constructor
    · rintro ⟨account, member, named, fits, identified⟩
      have noNul := (admits account member named).mp fits
      exact ⟨account, member,
        named.trans (stringAt_terminated noNul []), identified⟩
    · rintro ⟨account, member, rfl, identified⟩
      have noNul := database.noNul account member
      have named := (stringAt_terminated noNul []).symm
      exact ⟨account, member, named,
        (admits account member named).mpr noNul, identified⟩

theorem exactName_iff {id : UInt32} {capacity : Nat} :
    database.ExactName id capacity
        (resolveName database.lookupId id capacity) ↔
      database.IdAdmits id capacity := by
  constructor
  · intro exact account member identified room
    have resolved := (exact account.name).mpr
      ⟨account, member, identified, room, rfl⟩
    rcases resolveName_iff.mp resolved with
      ⟨other, otherMember, otherIdentified, fits, _⟩
    rwa [eq_of_id otherMember member
      (otherIdentified.trans identified.symm)] at fits
  · intro admits text
    rw [resolveName_iff]
    constructor
    · rintro ⟨account, member, identified, _, copied⟩
      exact ⟨account, member, identified, copied⟩
    · rintro ⟨account, member, identified, room, isName⟩
      exact ⟨account, member, identified,
        admits account member identified room, room, isName⟩

end Database

/--
When resolution is exact lookup.  From a name of at most 255 bytes to an id:
exactly if the account named by the bytes before the first NUL, if there is one,
has a record of at most 1024 bytes just when there is no NUL.  From an id to a
name: exactly if the account of the id, if there is one and its name fits, has a
record of at most 1024 bytes.
-/
theorem resolve_exact_iff (users groups : Database) :
    (∀ name : List Byte, name.length ≤ 255 →
      (users.ExactId name (resolveUserId users name) ↔
        users.NameAdmits name) ∧
      (groups.ExactId name (resolveGroupId groups name) ↔
        groups.NameAdmits name)) ∧
    ∀ id capacity,
      (users.ExactName id capacity (resolveUserName users id capacity) ↔
        users.IdAdmits id capacity) ∧
      (groups.ExactName id capacity (resolveGroupName groups id capacity) ↔
        groups.IdAdmits id capacity) := by
  constructor
  · intro name short
    exact ⟨Database.exactId_iff short, Database.exactId_iff short⟩
  · intro id capacity
    exact ⟨Database.exactName_iff, Database.exactName_iff⟩

/-- One user, `root`, whose record takes 40 bytes. -/
def rootUser : Database where
  accounts := [⟨[114, 111, 111, 116], 0, 40⟩]
  noNul := by decide
  uniqueNames := by decide
  uniqueIds := by decide

/-- One group, `staff`, whose record takes 2000 bytes. -/
def largeGroup : Database where
  accounts := [⟨[115, 116, 97, 102, 102], 50, 2000⟩]
  noNul := by decide
  uniqueNames := by decide
  uniqueIds := by decide

/-- The name `root` resolves to an id exactly. -/
theorem resolve_exact_iff_root :
    rootUser.ExactId [114, 111, 111, 116]
      (resolveUserId rootUser [114, 111, 111, 116]) := by
  have short : ([114, 111, 111, 116] : List Byte).length ≤ 255 := by decide
  refine (((resolve_exact_iff rootUser rootUser).1 _ short).1).mpr ?_
  intro account member _
  rw [List.mem_singleton.mp member]
  decide

/--
The six bytes `root`, NUL, `x` are no user's name and give the id of `root`; the
group `staff` is found neither by its name nor by its id.
-/
theorem resolve_not_exact :
    ¬ rootUser.ExactId [114, 111, 111, 116, 0, 120]
        (resolveUserId rootUser [114, 111, 111, 116, 0, 120]) ∧
    ¬ largeGroup.ExactId [115, 116, 97, 102, 102]
        (resolveGroupId largeGroup [115, 116, 97, 102, 102]) ∧
    ¬ largeGroup.ExactName 50 64 (resolveGroupName largeGroup 50 64) := by
  refine ⟨?_, ?_, ?_⟩
  · intro exact
    have resolved :
        resolveUserId rootUser [114, 111, 111, 116, 0, 120] = some 0 := by
      decide
    rcases (exact 0).mp resolved with ⟨account, member, named, _⟩
    rw [List.mem_singleton.mp member] at named
    exact absurd named (by decide)
  · intro exact
    have resolved := (exact 50).mpr ⟨_, List.mem_singleton.mpr rfl, rfl, rfl⟩
    exact absurd resolved (by decide)
  · intro exact
    have resolved := (exact [115, 116, 97, 102, 102]).mpr
      ⟨_, List.mem_singleton.mpr rfl, rfl, by decide, rfl⟩
    exact absurd resolved (by decide)

end BcIo.Perm
