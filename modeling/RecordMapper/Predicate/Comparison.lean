namespace RecordMapper

inductive Comparison where
  | eq
  | ne
  | lt
  | le
  | gt
  | ge
  deriving DecidableEq, Repr

namespace Comparison

def symbol : Comparison → String
  | .eq => "="
  | .ne => "<>"
  | .lt => "<"
  | .le => "<="
  | .gt => ">"
  | .ge => ">="

def flipped : Comparison → Comparison
  | .lt => .gt
  | .le => .ge
  | .gt => .lt
  | .ge => .le
  | op => op

def holds : Comparison → Ordering → Bool
  | .eq, order => order == .eq
  | .ne, order => order != .eq
  | .lt, order => order == .lt
  | .le, order => order != .gt
  | .gt, order => order == .gt
  | .ge, order => order != .lt

theorem holds_flipped (op : Comparison) (order : Ordering) :
    op.flipped.holds order = op.holds order.swap := by
  cases op <;> cases order <;> rfl

@[simp] theorem flipped_flipped (op : Comparison) : op.flipped.flipped = op := by
  cases op <;> rfl

end Comparison

end RecordMapper
