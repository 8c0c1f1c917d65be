import RecordMapper.Sql.Command

namespace RecordMapper

structure Paging where
  limit : Option UInt64
  skip : UInt64
  deriving DecidableEq, Repr

namespace Paging

def largest : Nat := 9223372036854775807

def clamp (n : UInt64) : Int64 :=
  Int64.ofNat (min n.toNat largest)

def window (p : Paging) : Sql.Window :=
  ⟨match p.limit with
    | some limit => clamp limit
    | none => -1, clamp p.skip⟩

def apply {α : Type} (p : Paging) (items : List α) : List α :=
  let rest := items.drop p.skip.toNat
  match p.limit with
  | some limit => rest.take limit.toNat
  | none => rest

def first (p : Option Paging) : Paging :=
  match p with
  | none => ⟨some 1, 0⟩
  | some p =>
    ⟨match p.limit with
      | some limit => some (min limit 1)
      | none => some 1, p.skip⟩

end Paging

end RecordMapper
