import RecordMapper.Proofs.Query.Answering
import RecordMapper.Proofs.Query.Counting

namespace RecordMapper

open RecordMapper.Store

variable {α β ε : Type}

section Narrowing

theorem first_limited (limit skip : UInt64) :
    ∃ fewer, Paging.first (some ⟨some limit, skip⟩) = ⟨some fewer, skip⟩ ∧ fewer.toNat = min limit.toNat 1 := by
  by_cases small : limit ≤ 1
  · refine ⟨limit, congrArg (fun n => (⟨some n, skip⟩ : Paging)) (if_pos small), ?_⟩
    rw [UInt64.le_iff_toNat_le, UInt64.toNat_one] at small
    omega
  · refine ⟨1, congrArg (fun n => (⟨some n, skip⟩ : Paging)) (if_neg small), ?_⟩
    rw [UInt64.le_iff_toNat_le, UInt64.toNat_one] at small
    rw [UInt64.toNat_one]
    omega

theorem windowed_limited (limit skip : UInt64) (items : List α) :
    windowed (some (Paging.window ⟨some limit, skip⟩)) items =
      (items.drop (Paging.clamp skip).toInt.toNat).take (min limit.toNat Paging.largest) := by
  have limited : (Paging.clamp limit).toInt = (min limit.toNat Paging.largest : Nat) := clamp_toInt limit
  simp only [windowed, Paging.window, limited]
  rw [if_neg (by omega), Int.toNat_natCast]

theorem windowed_unlimited (skip : UInt64) (items : List α) :
    windowed (some (Paging.window ⟨none, skip⟩)) items = items.drop (Paging.clamp skip).toInt.toNat := by
  simp only [windowed, Paging.window]
  exact if_pos (by decide)

theorem windowed_first (paging : Option Paging) (items : List α) :
    windowed (some (Paging.first paging).window) items = (windowed (paging.map Paging.window) items).take 1 := by
  have largest : Paging.largest = 9223372036854775807 := rfl
  have one : min (1 : UInt64).toNat Paging.largest = 1 := by decide
  cases paging with
  | none =>
    rw [Paging.first, windowed_limited, one, clamp_toInt]
    rfl
  | some p =>
    obtain ⟨limit, skip⟩ := p
    rw [Option.map_some]
    cases limit with
    | none => rw [Paging.first, windowed_limited, windowed_unlimited, one]
    | some limit =>
      obtain ⟨fewer, narrowed, count⟩ := first_limited limit skip
      rw [narrowed, windowed_limited, windowed_limited, List.take_take, count]
      congr 1
      omega

theorem apply_first (paging : Option Paging) (items : List α) :
    (Paging.first paging).apply items =
      (match paging with | some p => p.apply items | none => items).take 1 := by
  have one : (1 : UInt64).toNat = 1 := by decide
  cases paging with
  | none =>
    simp only [Paging.first, Paging.apply, one]
    rfl
  | some p =>
    obtain ⟨limit, skip⟩ := p
    cases limit with
    | none => simp only [Paging.first, Paging.apply, one]
    | some limit =>
      obtain ⟨fewer, narrowed, count⟩ := first_limited limit skip
      rw [narrowed]
      simp only [Paging.apply, count, List.take_take]
      rw [Nat.min_comm]

theorem mapM_take {f : α → Except ε β} {entries : List α} {results : List β} (n : Nat)
    (done : entries.mapM f = .ok results) : (entries.take n).mapM f = .ok (results.take n) := by
  rw [mapM_eq_ok] at done ⊢
  exact List.forall₂_take n done

end Narrowing

variable {g : ShapeGraph} {s : Fin g.size} {q : Query g s} {c : Content} {rows : Sql.Rows} {order : List Sql.OrderTerm}

/-- What is wrong with a selection does not depend on its window. -/
theorem Store.checkCommand_window (enforces : Bool) (columns : List Sql.ColumnName)
    (window other : Option Sql.Window) : checkCommand c enforces (.select columns rows order window) =
      checkCommand c enforces (.select columns rows order other) := by
  cases columns <;> rfl

namespace Query

theorem Asks.first (asks : q.Asks c rows order) : q.first.Asks c rows order where
  made := asks.made
  ordered := asks.ordered
  plain := ⟨asks.plain.root, asks.plain.joins⟩
  checked := (checkCommand_window true _ _ _).trans asks.checked
  examined := asks.examined

theorem rowsRead_first (alone : q.plan.joins.isEmpty = true) :
    q.first.rowsRead c rows order = (q.rowsRead c rows order).take 1 := by
  have narrow : Database.windowOf q.first = some (Paging.first q.plan.paging).window := if_pos alone
  have wide : Database.windowOf q = q.plan.paging.map Paging.window := if_pos alone
  simp only [rowsRead, Store.select, narrow, wide, windowed_first, List.map_take]
  rfl

theorem rowsRead_first_joined (joined : q.plan.joins.isEmpty = false) :
    q.first.rowsRead c rows order = q.rowsRead c rows order := by
  have narrow : Database.windowOf q.first = none := if_neg (Bool.eq_false_iff.1 joined)
  have wide : Database.windowOf q = none := if_neg (Bool.eq_false_iff.1 joined)
  simp only [rowsRead, narrow, wide]
  rfl

theorem recordsOf_first (fits : q.Fits) {records : List (Loaded g s)}
    (read : q.recordsOf (q.rowsRead c rows order) = .ok records) :
    q.first.recordsOf (q.first.rowsRead c rows order) = .ok (records.take 1) := by
  have loaders : q.first.loaders = q.loaders := rfl
  have root : q.first.plan.root = q.plan.root := rfl
  unfold recordsOf at read ⊢
  rw [loaders, root]
  by_cases alone : q.loaders.isEmpty = true
  · rw [if_pos alone, mapError_eq_ok] at read ⊢
    rw [rowsRead_first (fits.loaders_isEmpty ▸ alone)]
    exact mapM_take 1 read
  · have joined : q.plan.joins.isEmpty = false := by
      rw [← fits.loaders_isEmpty]
      exact Bool.eq_false_iff.2 alone
    rw [if_neg alone] at read ⊢
    rw [rowsRead_first_joined joined]
    simp only [bind_eq_ok, mapError_eq_ok, pure_eq_ok] at read ⊢
    obtain ⟨hydration, taken, all, finished, rfl⟩ := read
    refine ⟨hydration, taken, all, finished, ?_⟩
    have narrow : q.first.plan.heldPaging? = some (Paging.first q.plan.paging) := if_neg (Bool.eq_false_iff.1 joined)
    have wide : q.plan.heldPaging? = q.plan.paging := if_neg (Bool.eq_false_iff.1 joined)
    rw [narrow, wide]
    exact apply_first q.plan.paging all

end Query

/-- If a query gives records, the first of them is the record that it gives as the first one, on the same content. -/
theorem Database.selectFirst_eq_head (q : Query g s) (built : q.Built) (db after : Database)
    (same : after.engine.store.content = db.engine.store.content) (records : List (Loaded g s))
    (done : ((select q).run db).1 = .ok records) : ((selectFirst q).run after).1 = .ok records.head? := by
  obtain ⟨rows, order, asks, read⟩ := select_eq_ok_iff.1 done
  have narrowed : ((select q.first).run after).1 = .ok (records.take 1) := by
    rw [select_eq_ok_iff, same]
    exact ⟨rows, order, asks.first, Query.recordsOf_first built.fits read⟩
  rw [selectFirst, run_bind]
  rcases ran : (select q.first).run after with ⟨outcome, last⟩
  rw [ran] at narrowed
  obtain rfl : outcome = .ok (records.take 1) := narrowed
  cases records <;> rfl

section Shelf

theorem selectFirst_eq_head_shelf : pagedArtists.Built ∧
    ∃ records, ((Database.select pagedArtists).run shelfDatabase).1 = .ok records ∧ records.length = 1 ∧
      ((Database.selectFirst pagedArtists).run shelfDatabase).1 = .ok records.head? := by
  have built : pagedArtists.Built := .limit 5 0 artistsWithAlbums_built
  have selected : ((Database.select pagedArtists).run shelfDatabase).1 = .ok _ :=
    Database.select_joined_runs rfl rfl albumsCommand_readable albumsCommand_rows rfl rfl
  exact ⟨built, _, selected, by decide,
    Database.selectFirst_eq_head pagedArtists built shelfDatabase shelfDatabase rfl _ selected⟩

end Shelf

end RecordMapper
