import Perihelion.Lib.BigEndian

/-! # Typed structured data

EIP-712 for structs of addresses, numbers and strings.  A string enters a struct as its digest,
so that what a hash binds can only be said up to collisions: equal hashes come from equal data, or
two of the byte strings that were hashed on the way collide.
-/

namespace TypedData

open BigEndian

inductive Kind where
  | address
  | uint256
  | string
  deriving DecidableEq

structure Member where
  name : String
  kind : Kind

structure StructType where
  name : String
  members : List Member

def Kind.text : Kind → String
  | .address => "address"
  | .uint256 => "uint256"
  | .string => "string"

/-- Names are plain ASCII. -/
def ascii (text : String) : Bytes := text.toList.map fun ch => UInt8.ofNat ch.toNat

def Member.text (member : Member) : Bytes := ascii member.kind.text ++ ascii " " ++ ascii member.name

/-- `name ‖ "(" ‖ member ‖ "," ‖ … ‖ ")"`. -/
def encodeType (type : StructType) : Bytes :=
  ascii type.name ++ ascii "(" ++
    ((type.members.map Member.text).intersperse (ascii ",")).flatten ++ ascii ")"

inductive Value where
  | address (account : BitVec 160)
  | uint256 (n : BitVec 256)
  | string (utf8 : Bytes)
  deriving DecidableEq

def Value.kind : Value → Kind
  | .address _ => .address
  | .uint256 _ => .uint256
  | .string _ => .string

/-- A value of a struct type: one value for each member, of its kind. -/
@[ext]
structure Struct (type : StructType) where
  values : List Value
  typed : values.map Value.kind = type.members.map Member.kind

def word (x : BitVec 256) : Bytes := encode 32 x.toNat

@[simp] theorem word_length (x : BitVec 256) : (word x).length = 32 := encode_length _ _

theorem word_inj {x y : BitVec 256} (same : word x = word y) : x = y := by
  have width : (256 : Nat) ^ 32 = 2 ^ 256 := by norm_num
  have read := congrArg decode same
  rw [word, word, decode_encode, decode_encode, width, Nat.mod_eq_of_lt x.isLt,
    Nat.mod_eq_of_lt y.isLt] at read
  exact BitVec.eq_of_toNat_eq read

section Hash

variable (hash : Bytes → BitVec 256)

def typeHash (type : StructType) : BitVec 256 := hash (encodeType type)

/-- The 32 bytes that stand for a member. -/
def Value.word : Value → BitVec 256
  | .address account => account.setWidth 256
  | .uint256 n => n
  | .string utf8 => hash utf8

def encodeData {type : StructType} (s : Struct type) : Bytes :=
  word (typeHash hash type) ++ s.values.flatMap fun value => word (value.word hash)

def hashStruct {type : StructType} (s : Struct type) : BitVec 256 := hash (encodeData hash s)

/-- Of a domain with these four fields and no salt. -/
def domainType : StructType where
  name := "EIP712Domain"
  members := [⟨"name", .string⟩, ⟨"version", .string⟩, ⟨"chainId", .uint256⟩,
    ⟨"verifyingContract", .address⟩]

/-- `0x19 ‖ 0x01 ‖ domainSeparator ‖ hashStruct(message)`. -/
def envelope {type : StructType} (domain : Struct domainType) (s : Struct type) : Bytes :=
  [0x19, 0x01] ++ word (hashStruct hash domain) ++ word (hashStruct hash s)

def hashTypedData {type : StructType} (domain : Struct domainType) (s : Struct type) : BitVec 256 :=
  hash (envelope hash domain s)

/-! ## Binding -/

/-- One of the first byte strings collides with one of the second. -/
def Collide (xs ys : List Bytes) : Prop := ∃ x ∈ xs, ∃ y ∈ ys, x ≠ y ∧ hash x = hash y

def Value.hashed : Value → List Bytes
  | .string utf8 => [utf8]
  | _ => []

/-- All that is hashed for a struct besides its type. -/
def Struct.hashed {type : StructType} (s : Struct type) : List Bytes :=
  encodeData hash s :: s.values.flatMap Value.hashed

def hashed {type : StructType} (domain : Struct domainType) (s : Struct type) : List Bytes :=
  envelope hash domain s :: (domain.hashed hash ++ s.hashed hash)

end Hash

variable {hash : Bytes → BitVec 256}

theorem Collide.mono {xs xs' ys ys' : List Bytes} (collide : Collide hash xs ys) (left : xs ⊆ xs')
    (right : ys ⊆ ys') : Collide hash xs' ys' := by
  obtain ⟨x, inLeft, y, inRight, distinct, same⟩ := collide
  exact ⟨x, left inLeft, y, right inRight, distinct, same⟩

/-- A hash that two byte strings share. -/
theorem eq_or_collide {x y : Bytes} (same : hash x = hash y) : x = y ∨ Collide hash [x] [y] := by
  by_cases equal : x = y
  · exact Or.inl equal
  · exact Or.inr ⟨x, List.mem_cons_self, y, List.mem_cons_self, equal, same⟩

theorem Value.eq_or_collide {v v' : Value} (kinds : v.kind = v'.kind)
    (same : v.word hash = v'.word hash) : v = v' ∨ Collide hash v.hashed v'.hashed := by
  cases v with
  | address account =>
      cases v' with
      | address account' =>
          have read := congrArg BitVec.toNat same
          simp only [Value.word, BitVec.toNat_setWidth] at read
          rw [Nat.mod_eq_of_lt (account.isLt.trans (by decide)),
            Nat.mod_eq_of_lt (account'.isLt.trans (by decide))] at read
          exact Or.inl (congrArg Value.address (BitVec.eq_of_toNat_eq read))
      | uint256 n | string utf8 => cases kinds
  | uint256 n =>
      cases v' with
      | uint256 n' => exact Or.inl (congrArg Value.uint256 same)
      | address account | string utf8 => cases kinds
  | string utf8 =>
      cases v' with
      | string utf8' =>
          rcases TypedData.eq_or_collide same with equal | collide
          · exact Or.inl (congrArg Value.string equal)
          · exact Or.inr collide
      | address account | uint256 n => cases kinds

/-- Member by member, since every word has 32 bytes. -/
theorem values_eq_or_collide {vs vs' : List Value}
    (kinds : vs.map Value.kind = vs'.map Value.kind)
    (same : (vs.flatMap fun v => word (v.word hash)) = vs'.flatMap fun v => word (v.word hash)) :
    vs = vs' ∨ Collide hash (vs.flatMap Value.hashed) (vs'.flatMap Value.hashed) := by
  induction vs generalizing vs' with
  | nil =>
      cases vs' with
      | nil => exact Or.inl rfl
      | cons v' vs' => cases kinds
  | cons v vs ih =>
      cases vs' with
      | nil => cases kinds
      | cons v' vs' =>
          obtain ⟨kind, kinds⟩ := List.cons.inj kinds
          obtain ⟨head, tail⟩ := List.append_inj same (by simp)
          rcases Value.eq_or_collide kind (word_inj head) with equal | collide
          · rcases ih kinds tail with equals | collide
            · exact Or.inl (by rw [equal, equals])
            · exact Or.inr (collide.mono (List.subset_append_right _ _)
                (List.subset_append_right _ _))
          · exact Or.inr (collide.mono (List.subset_append_left _ _) (List.subset_append_left _ _))

theorem hashStruct_binds {type : StructType} {s s' : Struct type}
    (same : hashStruct hash s = hashStruct hash s') :
    s = s' ∨ Collide hash (s.hashed hash) (s'.hashed hash) := by
  rcases eq_or_collide same with encoded | collide
  · have data := (List.append_inj encoded (by simp)).2
    rcases values_eq_or_collide (s.typed.trans s'.typed.symm) data with equal | collide
    · exact Or.inl (Struct.ext equal)
    · exact Or.inr (collide.mono (List.subset_cons_self _ _) (List.subset_cons_self _ _))
  · refine Or.inr (collide.mono ?_ ?_)
    all_goals exact List.cons_subset_cons _ (List.nil_subset _)

/-- A hash names its domain and its message. -/
theorem hashTypedData_binds {type : StructType} {domain domain' : Struct domainType}
    {s s' : Struct type}
    (same : hashTypedData hash domain s = hashTypedData hash domain' s') :
    (domain = domain' ∧ s = s') ∨ Collide hash (hashed hash domain s) (hashed hash domain' s') := by
  rcases eq_or_collide same with whole | collide
  · obtain ⟨front, message⟩ := List.append_inj whole (by simp)
    have separator := (List.append_inj front rfl).2
    rcases hashStruct_binds (word_inj separator) with domains | collide
    · rcases hashStruct_binds (word_inj message) with messages | collide
      · exact Or.inl ⟨domains, messages⟩
      · exact Or.inr (collide.mono
          (List.Subset.trans (List.subset_append_right _ _) (List.subset_cons_self _ _))
          (List.Subset.trans (List.subset_append_right _ _) (List.subset_cons_self _ _)))
    · exact Or.inr (collide.mono
        (List.Subset.trans (List.subset_append_left _ _) (List.subset_cons_self _ _))
        (List.Subset.trans (List.subset_append_left _ _) (List.subset_cons_self _ _)))
  · refine Or.inr (collide.mono ?_ ?_)
    all_goals exact List.cons_subset_cons _ (List.nil_subset _)

end TypedData
