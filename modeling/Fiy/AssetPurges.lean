import Fiy.CdnServer
import Fiy.SqlQueries

/-!
# The purge of the storage server

`purge` statement by statement, for any content of the tables of `db.sql` and any statement that
raises. `AND` and `NOT IN` are those of the database, with nulls.
-/

namespace AssetPurges

open ByteStrings RowTables CdnServer SqlQueries

/-! ## Tables -/

/-- A row of `Assets`, as far as `purge` reads it. What is not set is null. -/
structure AssetRow where
  id : Int
  bucket : Int
  createTs : Option Int
  deleteTs : Option Int
  deriving DecidableEq, Repr

/-- A row of `Tokens` -/
structure TokenRow where
  token : Option Int
  assetId : Option Int
  expireTs : Option Int
  deriving DecidableEq, Repr

@[ext]
structure Tables where
  assets : List AssetRow
  tokens : List TokenRow
  /-- The identifier is the primary key. -/
  distinct : (assets.map AssetRow.id).Nodup

namespace Tables

def filterAssets (p : AssetRow → Bool) (t : Tables) : Tables where
  assets := t.assets.filter p
  tokens := t.tokens
  distinct := t.distinct.sublist (List.filter_sublist.map _)

def filterTokens (p : TokenRow → Bool) (t : Tables) : Tables :=
  { t with tokens := t.tokens.filter p }

end Tables

/-- A comparison of a column; that of a null is null. -/
def less (column : Option Int) (bound : Int) : Option Bool :=
  column.map fun value => value < bound

/-- `NOT IN` -/
def notIn (id : Int) (column : List (Option Int)) : Option Bool :=
  if some id ∈ column then some false else if none ∈ column then none else some true

/-- The condition of `q_unused_assets` and `purge_assets`. -/
def unusedRow (now : Int) (tokens : List TokenRow) (row : AssetRow) : Bool :=
  bothOf (less row.createTs (now - 300)) (notIn row.id (tokens.map TokenRow.assetId)) = some true

/-! ## Statements -/

/-- The statements of `purge`, each prepared once per thread. -/
inductive Statement
  /-- `t_start` -/
  | start
  | purgeTokens
  | unusedAssets
  | purgeAssets
  /-- `t_rb` -/
  | rollback
  /-- `t_commit` -/
  | commit
  deriving DecidableEq, Repr

/-- How far a prepared statement has got since it was reset. -/
inductive Standing
  | ready
  | done
  /-- Its last step raised. -/
  | failed
  deriving DecidableEq, Repr

/-- How the use of a statement fails. -/
inductive Fault
  /-- It is not prepared, or a parameter is not bound. -/
  | refused
  /-- A step raises after some rows, and may have ended the transaction. -/
  | raises (rows : Nat) (endsTransaction : Bool)
  deriving DecidableEq, Repr

/-- A thread with its connection. -/
structure Thread where
  /-- as the connection sees them -/
  tables : Tables
  /-- what was there when the open transaction began -/
  begun : Option Tables
  standing : Statement → Standing
  files : Text → Option Text

/-- What a call of `purge` meets. -/
structure Call where
  /-- `time(nullptr)` -/
  now : Int
  plan : Statement → Option Fault
  /-- The system removes the file. -/
  removes : Text → Bool

def Thread.stand (st : Statement) (standing : Standing) (th : Thread) : Thread :=
  { th with standing := Function.update th.standing st standing }

/-- The transaction is gone, and what it did. -/
def Thread.abort (th : Thread) : Thread :=
  { th with tables := th.begun.getD th.tables, begun := none }

/-- The thread behind a step that raised. -/
def Thread.fail (st : Statement) (endsTransaction : Bool) (th : Thread) : Thread :=
  (if endsTransaction then th.abort else th).stand st .failed

section calls
variable (cfg : Config) (call : Call)

/-- `exec`, and whether it came through. A statement that is done has to be reset before. -/
def exec (st : Statement) (step : Thread → Option Thread) (th : Thread) : Bool × Thread :=
  if th.standing st = .done then (false, th)
  else match call.plan st with
    | some .refused => (false, th)
    | some (.raises _ endsTransaction) => (false, th.fail st endsTransaction)
    | none => match step th with
      | none => (false, th.fail st false)
      | some th => (true, th.stand st .done)

/-- `exec` and `reset` -/
def execReset (st : Statement) (step : Thread → Option Thread) (th : Thread) : Bool × Thread :=
  match exec call st step th with
  | (false, th) => (false, th)
  | (true, th) => (true, th.stand st .ready)

/-- The parameters can be bound. -/
def binds (st : Statement) (th : Thread) : Bool :=
  th.standing st = .ready && call.plan st ≠ some .refused

def beginStep (th : Thread) : Option Thread :=
  match th.begun with
  | some _ => none
  | none => some { th with begun := some th.tables }

def rollbackStep (th : Thread) : Option Thread := th.begun.map fun _ => th.abort

def commitStep (th : Thread) : Option Thread := th.begun.map fun _ => { th with begun := none }

/-- What the statements take for unused. -/
def unusedAssets (t : Tables) : List AssetRow := t.assets.filter (unusedRow call.now t.tokens)

def purgeAssetsStep (th : Thread) : Option Thread :=
  some { th with
    tables := th.tables.filterAssets fun row => !unusedRow call.now th.tables.tokens row }

/-- The loop of `executeStep`, with the reset behind it, and what it collects. -/
def collect (th : Thread) : Bool × List (Nat × Nat) × Thread :=
  let rows := (unusedAssets call th.tables).map fun row => (toUint32 row.bucket, toUint32 row.id)
  match call.plan .unusedAssets with
  | some (.raises steps endsTransaction) =>
    (false, rows.take steps, th.fail .unusedAssets endsTransaction)
  | _ => (true, rows, th)

/-- What is behind the block: the statement that raised, and `assets_to_delete`. -/
structure Tried where
  thrown : Option Statement
  assets : List (Nat × Nat)
  thread : Thread

/-- The `try` of `purge`. The statement that would delete tokens is only bound. -/
def tryPurge (th : Thread) : Tried :=
  match execReset call .start beginStep th with
  | (false, th) => ⟨some .start, [], th⟩
  | (true, th) =>
    if ¬ binds call .purgeTokens th then ⟨some .purgeTokens, [], th⟩
    else if ¬ binds call .unusedAssets th then ⟨some .unusedAssets, [], th⟩
    else match collect call th with
      | (false, assets, th) => ⟨some .unusedAssets, assets, th⟩
      | (true, assets, th) =>
        if ¬ binds call .purgeAssets th then ⟨some .purgeAssets, assets, th⟩
        else match execReset call .purgeAssets (purgeAssetsStep call) th with
          | (false, th) => ⟨some .purgeAssets, assets, th⟩
          | (true, th) => ⟨none, assets, th⟩

structure Outcome where
  /-- the statements that raised -/
  raised : List Statement
  /-- An exception leaves the function. -/
  escapes : Bool
  thread : Thread

/-- The files of the collected assets are removed, where the system lets them. -/
def removeFiles (assets : List (Nat × Nat)) (files : Text → Option Text) : Text → Option Text :=
  assets.foldl (fun files asset path =>
    if path = assetPath cfg asset.1 asset.2 ∧ call.removes path then none else files path) files

/-- `COMMIT`, and the files -/
def finish (raised : List Statement) (assets : List (Nat × Nat)) (th : Thread) : Outcome :=
  match execReset call .commit commitStep th with
  | (false, th) => ⟨raised ++ [.commit], true, th⟩
  | (true, th) => ⟨raised, false, { th with files := removeFiles cfg call assets th.files }⟩

/-- `purge`. The statement that rolls back is never reset, and `COMMIT` follows it. -/
def purge (th : Thread) : Outcome :=
  match tryPurge call th with
  | ⟨none, assets, th⟩ => finish cfg call [] assets th
  | ⟨some st, assets, th⟩ => match exec call .rollback rollbackStep th with
    | (false, th) => ⟨[st, .rollback], true, th⟩
    | (true, th) => finish cfg call [st] assets th

end calls

/-! ## What is documented -/

section documented
variable (now : Int)

def Expired (row : TokenRow) : Prop := ∃ ts ∈ row.expireTs, ts < now ∧ ts ≠ -1

/-- It is older than the creation delay. -/
def Aged (row : AssetRow) : Prop := ∃ ts ∈ row.createTs, ts < now - 300

def PastDeletion (row : AssetRow) : Prop := ∃ ts ∈ row.deleteTs, ts < now ∧ ts ≠ -1

/-- The token is expired, or its asset is to be deleted. -/
def Dead (t : Tables) (row : TokenRow) : Prop :=
  Expired now row ∨
    ∃ asset ∈ t.assets, row.assetId = some asset.id ∧ PastDeletion now asset ∧ Aged now asset

/-- The asset is old enough, and none of the tokens is for it. -/
def Unowned (tokens : List TokenRow) (row : AssetRow) : Prop :=
  Aged now row ∧ ∀ token ∈ tokens, token.assetId ≠ some row.id

instance (row : TokenRow) : Decidable (Expired now row) := inferInstanceAs (Decidable (∃ _ ∈ _, _))
instance (row : AssetRow) : Decidable (Aged now row) := inferInstanceAs (Decidable (∃ _ ∈ _, _))
instance (row : AssetRow) : Decidable (PastDeletion now row) :=
  inferInstanceAs (Decidable (∃ _ ∈ _, _))
instance (t : Tables) (row : TokenRow) : Decidable (Dead now t row) :=
  inferInstanceAs (Decidable (_ ∨ _))
instance (tokens : List TokenRow) (row : AssetRow) : Decidable (Unowned now tokens row) :=
  inferInstanceAs (Decidable (_ ∧ _))

/-- The tokens that stay. -/
def liveTokens (t : Tables) : List TokenRow := t.tokens.filter fun row => ¬ Dead now t row

/-- The assets that go, once the tokens are gone. -/
def goneAssets (t : Tables) : List AssetRow :=
  t.assets.filter fun row => Unowned now (liveTokens now t) row

/-- First the dead tokens go, and then the assets without a token. -/
def purged (t : Tables) : Tables :=
  (t.filterTokens fun row => ¬ Dead now t row).filterAssets
    fun row => ¬ Unowned now (liveTokens now t) row

/-- The file of an asset -/
def fileOf (cfg : Config) (row : AssetRow) : Text :=
  assetPath cfg (toUint32 row.bucket) (toUint32 row.id)

def purgedFiles (cfg : Config) (t : Tables) (files : Text → Option Text) (path : Text) :
    Option Text :=
  if ∃ row ∈ goneAssets now t, path = fileOf cfg row then none else files path

end documented

section
variable (cfg : Config) (call : Call)

/-- What is seen of calls on a thread, one after another. -/
def seen : List Call → Thread → List (List Statement × Bool × Tables × (Text → Option Text))
  | [], _ => []
  | call :: calls, th =>
    let outcome := purge cfg call th
    (outcome.raised, outcome.escapes, outcome.thread.tables, outcome.thread.files) ::
      seen calls outcome.thread

/-- What is said of `purge`: it does its work if no statement raises, or else nothing at all, also
to later calls. The file of a row that stays is never deleted. -/
def Right (th : Thread) : Prop :=
  let outcome := purge cfg call th
  (∀ row ∈ outcome.thread.tables.assets,
    outcome.thread.files (fileOf cfg row) = th.files (fileOf cfg row)) ∧
  if outcome.raised = [] then
    outcome.escapes = false ∧ outcome.thread.tables = purged call.now th.tables ∧
      outcome.thread.files = purgedFiles call.now cfg th.tables th.files
  else
    outcome.escapes = false ∧ outcome.thread.tables = th.tables ∧
      outcome.thread.files = th.files ∧
      ∀ calls, seen cfg calls outcome.thread = seen cfg calls th

/-- No transaction is open, no statement is left from an earlier call, and none fails. -/
structure Usable (th : Thread) : Prop where
  closed : th.begun = none
  ready : ∀ st ∈ [Statement.purgeTokens, .unusedAssets, .purgeAssets], th.standing st = .ready
  reset : ∀ st ∈ [Statement.start, .commit], th.standing st ≠ .done
  bound : call.plan .purgeTokens ≠ some .refused
  quiet : ∀ st ∈ [Statement.start, .unusedAssets, .purgeAssets, .commit], call.plan st = none

/-- Every statement can be used, and there is no token to remove. Where assets are removed, every
token has an asset, their files can be removed, and none of these is the file of another row. -/
structure Condition (th : Thread) : Prop where
  usable : Usable call th
  live : ∀ token ∈ th.tables.tokens, ¬ Dead call.now th.tables token
  assigned : ∀ row ∈ th.tables.assets, Unowned call.now th.tables.tokens row →
    ∀ token ∈ th.tables.tokens, token.assetId ≠ none
  removable : ∀ row ∈ th.tables.assets, Unowned call.now th.tables.tokens row →
    th.files (fileOf cfg row) ≠ none → call.removes (fileOf cfg row)
  apart : ∀ row ∈ th.tables.assets, Unowned call.now th.tables.tokens row →
    ∀ other ∈ th.tables.assets, ¬ Unowned call.now th.tables.tokens other →
      fileOf cfg other = fileOf cfg row → th.files (fileOf cfg row) = none

end

/-! ## Rows -/

theorem bothOf_iff (a b : Option Bool) :
    bothOf a b = some true ↔ a = some true ∧ b = some true := by
  rcases a with _ | _ | _ <;> rcases b with _ | _ | _ <;> decide

theorem notIn_iff (id : Int) (column : List (Option Int)) :
    notIn id column = some true ↔ some id ∉ column ∧ none ∉ column := by
  unfold notIn
  split_ifs <;> simp_all

/-- A null among the tokens keeps every asset. -/
theorem unusedRow_iff (now : Int) (tokens : List TokenRow) (row : AssetRow) :
    unusedRow now tokens row ↔
      Unowned now tokens row ∧ ∀ token ∈ tokens, token.assetId ≠ none := by
  have aged : less row.createTs (now - 300) = some true ↔ Aged now row := by
    cases h : row.createTs <;> simp [less, Aged, h]
  unfold unusedRow Unowned
  rw [decide_eq_true_iff, bothOf_iff, aged, notIn_iff]
  simp only [List.mem_map, not_exists, not_and]
  tauto

/-! ## Uses of statements -/

section
variable (cfg : Config) (call : Call)

theorem execReset_quiet {st : Statement} (step : Thread → Option Thread) {th th' : Thread}
    (reset : th.standing st ≠ .done) (quiet : call.plan st = none) (steps : step th = some th') :
    execReset call st step th = (true, th'.stand st .ready) := by
  simp [execReset, exec, reset, quiet, steps, Thread.stand]

/-- What came through met no fault. -/
theorem of_exec {st : Statement} {step : Thread → Option Thread} {th th' : Thread}
    (came : exec call st step th = (true, th')) :
    th.standing st ≠ .done ∧ call.plan st = none ∧
      ∃ next, step th = some next ∧ th' = next.stand st .done := by
  unfold exec at came
  split_ifs at came with done
  · cases came
  · cases planned : call.plan st with
    | none =>
      cases steps : step th with
      | none => simp [planned, steps] at came
      | some next =>
        simp only [planned, steps] at came
        exact ⟨done, rfl, next, rfl, (congrArg Prod.snd came).symm⟩
    | some fault => cases fault <;> simp [planned] at came

theorem of_execReset {st : Statement} {step : Thread → Option Thread} {th th' : Thread}
    (came : execReset call st step th = (true, th')) :
    th.standing st ≠ .done ∧ call.plan st = none ∧
      ∃ next, step th = some next ∧ th' = next.stand st .ready := by
  unfold execReset at came
  rcases execs : exec call st step th with ⟨_ | _, done⟩
  · rw [execs] at came
    cases came
  · obtain ⟨reset, quiet, next, steps, rfl⟩ := of_exec call execs
    rw [execs] at came
    exact ⟨reset, quiet, next, steps, by simpa [Thread.stand] using (congrArg Prod.snd came).symm⟩

omit call in
theorem of_beginStep {th next : Thread} (begins : beginStep th = some next) :
    th.begun = none ∧ next = { th with begun := some th.tables } := by
  unfold beginStep at begins
  cases begun : th.begun with
  | none =>
    rw [begun] at begins
    exact ⟨rfl, (Option.some.inj begins).symm⟩
  | some tables =>
    rw [begun] at begins
    cases begins

theorem binds_iff (st : Statement) (th : Thread) :
    binds call st th ↔ th.standing st = .ready ∧ call.plan st ≠ some .refused := by
  simp [binds]

theorem of_collect {th th' : Thread} {found : List (Nat × Nat)}
    (bound : binds call .unusedAssets th) (came : collect call th = (true, found, th')) :
    call.plan .unusedAssets = none ∧ th' = th := by
  obtain ⟨-, bound⟩ := (binds_iff call _ _).mp bound
  unfold collect at came
  cases planned : call.plan .unusedAssets with
  | none =>
    rw [planned] at came
    exact ⟨rfl, (congrArg (·.2.2) came).symm⟩
  | some fault => cases fault with
    | refused => exact absurd planned bound
    | raises rows endsTransaction =>
      rw [planned] at came
      cases came

theorem removeFiles_apply (assets : List (Nat × Nat)) (files : Text → Option Text) (path : Text) :
    removeFiles cfg call assets files path =
      if (∃ asset ∈ assets, path = assetPath cfg asset.1 asset.2) ∧ call.removes path then none
      else files path := by
  induction assets generalizing files with
  | nil => simp [removeFiles]
  | cons asset assets ih =>
    refine (ih _).trans ?_
    simp only [List.mem_cons, exists_eq_or_imp]
    by_cases later : (∃ asset ∈ assets, path = assetPath cfg asset.1 asset.2) ∧ call.removes path
    · rw [if_pos later, if_pos ⟨.inr later.1, later.2⟩]
    · rw [if_neg later]
      refine if_congr ⟨fun h => ⟨.inl h.1, h.2⟩, fun h => ⟨?_, h.2⟩⟩ rfl rfl
      exact h.1.resolve_right fun among => later ⟨among, h.2⟩

/-! ## Calls -/

/-- The tables behind a call that came through. -/
def emptied (t : Tables) : Tables := t.filterAssets fun row => !unusedRow call.now t.tokens row

/-- The files behind it. -/
def leftFiles (t : Tables) (files : Text → Option Text) (path : Text) : Option Text :=
  if (∃ row ∈ unusedAssets call t, path = fileOf cfg row) ∧ call.removes path then none
  else files path

/-- What a statement of the transaction finds, and what `purge_assets` leaves. -/
theorem tryPurge_quiet {th : Thread} (usable : Usable call th) :
    ∃ standing, tryPurge call th =
      ⟨none, (unusedAssets call th.tables).map fun row => (toUint32 row.bucket, toUint32 row.id),
        emptied call th.tables, some th.tables, standing, th.files⟩ ∧
      standing .commit ≠ .done := by
  obtain ⟨closed, ready, reset, bound, quiet⟩ := usable
  have begins : beginStep th = some { th with begun := some th.tables } := by
    simp [beginStep, closed]
  simp only [List.forall_mem_cons, List.not_mem_nil, false_imp_iff, implies_true, and_true]
    at ready reset quiet
  unfold tryPurge
  rw [execReset_quiet call beginStep reset.1 quiet.1 begins]
  simp only
  rw [if_neg (by simp [binds, Thread.stand, ready, bound]),
    if_neg (by simp [binds, Thread.stand, ready, quiet])]
  simp only [collect, quiet]
  rw [if_neg (by simp [binds, Thread.stand, ready, quiet]),
    execReset_quiet call (purgeAssetsStep call) (by simp [Thread.stand, ready]) quiet.2.2.1 rfl]
  exact ⟨_, rfl, by simpa [Thread.stand] using reset.2⟩

/-- The assets that are removed are those that were collected before. -/
theorem purge_quiet {th : Thread} (usable : Usable call th) :
    ∃ standing, purge cfg call th = ⟨[], false, emptied call th.tables, none, standing,
      leftFiles cfg call th.tables th.files⟩ := by
  obtain ⟨standing, tried, reset⟩ := tryPurge_quiet call usable
  have quiet : call.plan .commit = none := usable.quiet _ (by simp)
  unfold purge
  rw [tried]
  simp only [finish]
  rw [execReset_quiet call commitStep reset quiet rfl]
  refine ⟨_, congrArg (Outcome.mk [] false) (congrArg (Thread.mk _ _ _) ?_)⟩
  funext path
  rw [removeFiles_apply]
  refine if_congr ?_ rfl rfl
  simp [fileOf]

/-- A block that came through met no fault, and left the last statement alone. -/
theorem usable_of_tryPurge {th th' : Thread} {assets : List (Nat × Nat)}
    (tried : tryPurge call th = ⟨none, assets, th'⟩) (quiet : call.plan .commit = none)
    (reset : th'.standing .commit ≠ .done) : Usable call th := by
  unfold tryPurge at tried
  rcases begins : execReset call .start beginStep th with ⟨_ | _, th₁⟩
  · rw [begins] at tried
    cases tried
  · rw [begins] at tried
    obtain ⟨startReset, startQuiet, th₀, begun, rfl⟩ := of_execReset call begins
    obtain ⟨closed, rfl⟩ := of_beginStep begun
    simp only at tried
    split_ifs at tried with tokens unused
    rotate_left
    · cases tried
    · cases tried
    rcases collects : collect call (Thread.stand .start .ready { th with begun := some th.tables })
      with ⟨_ | _, found, th₁⟩
    · rw [collects] at tried
      cases tried
    obtain ⟨unusedQuiet, rfl⟩ := of_collect call unused collects
    rw [collects] at tried
    simp only at tried
    split_ifs at tried with remaining
    rotate_left
    · cases tried
    rcases deletes : execReset call .purgeAssets (purgeAssetsStep call)
      (Thread.stand .start .ready { th with begun := some th.tables }) with ⟨_ | _, th₂⟩
    · rw [deletes] at tried
      cases tried
    obtain ⟨-, assetsQuiet, th₁, steps, rfl⟩ := of_execReset call deletes
    cases steps
    rw [deletes] at tried
    cases tried
    obtain ⟨tokensReady, tokensBound⟩ := (binds_iff call _ _).mp tokens
    obtain ⟨unusedReady, -⟩ := (binds_iff call _ _).mp unused
    obtain ⟨assetsReady, -⟩ := (binds_iff call _ _).mp remaining
    simp only [Thread.stand, Function.update_of_ne, ne_eq, reduceCtorEq, not_false_eq_true]
      at tokensReady unusedReady assetsReady reset
    exact ⟨closed, by simp [tokensReady, unusedReady, assetsReady], by simp [startReset, reset],
      tokensBound, by simp [startQuiet, unusedQuiet, assetsQuiet, quiet]⟩

/-- Whatever raises, an exception leaves the function: there is no transaction that the last
statement could commit. -/
theorem purge_raises {th : Thread} (unusable : ¬ Usable call th) :
    (purge cfg call th).raised ≠ [] ∧ (purge cfg call th).escapes = true := by
  unfold purge
  rcases tried : tryPurge call th with ⟨_ | st, assets, th₁⟩
  · simp only [finish]
    rcases commits : execReset call .commit commitStep th₁ with ⟨_ | _, th₂⟩
    · simp
    · obtain ⟨reset, quiet, -⟩ := of_execReset call commits
      exact absurd (usable_of_tryPurge call tried quiet reset) unusable
  · simp only
    rcases undoes : exec call .rollback rollbackStep th₁ with ⟨_ | _, th₂⟩
    · simp
    · have closed : th₂.begun = none := by
        obtain ⟨-, -, next, steps, rfl⟩ := of_exec call undoes
        obtain ⟨tables, -, rfl⟩ := Option.map_eq_some_iff.mp steps
        rfl
      simp only [finish]
      rcases commits : execReset call .commit commitStep th₂ with ⟨_ | _, th₃⟩
      · simp
      · obtain ⟨-, -, next, steps, -⟩ := of_execReset call commits
        simp [commitStep, closed] at steps

/-! ## Results -/

/-- No token is removed by what is documented either. -/
theorem liveTokens_eq_iff (now : Int) (t : Tables) :
    liveTokens now t = t.tokens ↔ ∀ token ∈ t.tokens, ¬ Dead now t token := by
  simp [liveTokens, List.filter_eq_self]

/-- The tables are as documented if no token had to go, and no null kept an asset. -/
theorem emptied_eq_iff (t : Tables) :
    emptied call t = purged call.now t ↔
      (∀ token ∈ t.tokens, ¬ Dead call.now t token) ∧
      ∀ row ∈ t.assets, Unowned call.now t.tokens row →
        ∀ token ∈ t.tokens, token.assetId ≠ none := by
  rw [← liveTokens_eq_iff, Tables.ext_iff, and_comm]
  refine (and_congr_left' eq_comm).trans (and_congr_right fun live => ?_)
  have assets : (purged call.now t).assets =
      t.assets.filter fun row => ¬ Unowned call.now t.tokens row := by
    simp only [purged, Tables.filterAssets, Tables.filterTokens,
      show liveTokens call.now t = t.tokens from live]
  rw [assets]
  refine filter_eq_filter_iff.trans (forall₂_congr fun row _ => ?_)
  rw [Bool.eq_iff_iff, Bool.not_eq_true', ← Bool.not_eq_true, unusedRow_iff, decide_eq_true_iff,
    not_iff_not]
  exact and_iff_left_iff_imp

section rows
variable {call} {th : Thread}
  (live : ∀ token ∈ th.tables.tokens, ¬ Dead call.now th.tables token)
  (assigned : ∀ row ∈ th.tables.assets, Unowned call.now th.tables.tokens row →
    ∀ token ∈ th.tables.tokens, token.assetId ≠ none)

include live in
theorem mem_goneAssets (row : AssetRow) : row ∈ goneAssets call.now th.tables ↔
    row ∈ th.tables.assets ∧ Unowned call.now th.tables.tokens row := by
  rw [goneAssets, (liveTokens_eq_iff call.now th.tables).mpr live, List.mem_filter,
    decide_eq_true_iff]

include assigned in
theorem mem_unusedAssets (row : AssetRow) : row ∈ unusedAssets call th.tables ↔
    row ∈ th.tables.assets ∧ Unowned call.now th.tables.tokens row := by
  rw [unusedAssets, List.mem_filter, unusedRow_iff]
  exact and_congr_right fun mem => and_iff_left_iff_imp.mpr (assigned row mem)

include assigned in
theorem mem_emptied (row : AssetRow) : row ∈ (emptied call th.tables).assets ↔
    row ∈ th.tables.assets ∧ ¬ Unowned call.now th.tables.tokens row := by
  rw [emptied, Tables.filterAssets, List.mem_filter, Bool.not_eq_true', ← Bool.not_eq_true,
    unusedRow_iff]
  exact and_congr_right fun mem => not_congr (and_iff_left_iff_imp.mpr (assigned row mem))

include live assigned in
theorem leftFiles_gone (path : Text) : leftFiles cfg call th.tables th.files path =
    if (∃ row ∈ goneAssets call.now th.tables, path = fileOf cfg row) ∧ call.removes path
    then none else th.files path := by
  refine if_congr (and_congr_left' (exists_congr fun row => and_congr_left' ?_)) rfl rfl
  rw [mem_goneAssets live, mem_unusedAssets assigned]

include live in
theorem gone_of_unowned {row : AssetRow} (mem : row ∈ th.tables.assets)
    (unowned : Unowned call.now th.tables.tokens row) :
    ∃ r ∈ goneAssets call.now th.tables, fileOf cfg row = fileOf cfg r :=
  ⟨row, (mem_goneAssets live row).mpr ⟨mem, unowned⟩, rfl⟩

include live assigned in
/-- The files are those that are documented if the system removes what it is told to. -/
theorem leftFiles_eq_iff :
    leftFiles cfg call th.tables th.files = purgedFiles call.now cfg th.tables th.files ↔
      ∀ row ∈ th.tables.assets, Unowned call.now th.tables.tokens row →
        th.files (fileOf cfg row) ≠ none → call.removes (fileOf cfg row) := by
  constructor
  · intro same row mem unowned there
    by_contra refuses
    have at_ := congrFun same (fileOf cfg row)
    rw [leftFiles_gone cfg live assigned, if_neg fun h => refuses h.2, purgedFiles,
      if_pos (gone_of_unowned cfg live mem unowned)] at at_
    exact there at_
  · intro removable
    funext path
    rw [leftFiles_gone cfg live assigned, purgedFiles]
    by_cases removed : ∃ row ∈ goneAssets call.now th.tables, path = fileOf cfg row
    · rw [if_pos removed]
      split_ifs with removes
      · rfl
      · obtain ⟨row, mem, rfl⟩ := id removed
        obtain ⟨mem, unowned⟩ := (mem_goneAssets live row).mp mem
        by_contra there
        exact removes ⟨removed, removable row mem unowned there⟩
    · rw [if_neg removed, if_neg fun h => removed h.1]

include live assigned in
/-- The rows that stay keep their files if these are of no asset that is removed. -/
theorem kept_iff
    (removable : ∀ row ∈ th.tables.assets, Unowned call.now th.tables.tokens row →
      th.files (fileOf cfg row) ≠ none → call.removes (fileOf cfg row)) :
    (∀ row ∈ (emptied call th.tables).assets,
      leftFiles cfg call th.tables th.files (fileOf cfg row) = th.files (fileOf cfg row)) ↔
    ∀ row ∈ th.tables.assets, Unowned call.now th.tables.tokens row →
      ∀ other ∈ th.tables.assets, ¬ Unowned call.now th.tables.tokens other →
        fileOf cfg other = fileOf cfg row → th.files (fileOf cfg row) = none := by
  constructor
  · intro kept row mem unowned other otherMem owned shared
    by_contra there
    have stays := kept other ((mem_emptied assigned other).mpr ⟨otherMem, owned⟩)
    rw [shared, leftFiles_gone cfg live assigned,
      if_pos ⟨gone_of_unowned cfg live mem unowned, removable row mem unowned there⟩] at stays
    exact there stays.symm
  · intro apart other otherMem
    obtain ⟨otherMem, owned⟩ := (mem_emptied assigned other).mp otherMem
    rw [leftFiles_gone cfg live assigned]
    split_ifs with removed
    · obtain ⟨⟨row, mem, shared⟩, -⟩ := removed
      obtain ⟨mem, unowned⟩ := (mem_goneAssets live row).mp mem
      rw [shared, apart row mem unowned other otherMem owned shared]
    · rfl

end rows

theorem right_iff_of_usable {th : Thread} (usable : Usable call th) :
    Right cfg call th ↔ Condition cfg call th := by
  obtain ⟨standing, purges⟩ := purge_quiet cfg call usable
  unfold Right
  rw [purges]
  simp only [if_true, true_and]
  rw [emptied_eq_iff, and_left_comm]
  constructor
  · rintro ⟨⟨live, assigned⟩, kept, same⟩
    have removable := (leftFiles_eq_iff cfg live assigned).mp same
    exact ⟨usable, live, assigned, removable, (kept_iff cfg live assigned removable).mp kept⟩
  · rintro ⟨-, live, assigned, removable, apart⟩
    exact ⟨⟨live, assigned⟩, (kept_iff cfg live assigned removable).mpr apart,
      (leftFiles_eq_iff cfg live assigned).mpr removable⟩

theorem not_right {th : Thread} (unusable : ¬ Usable call th) : ¬ Right cfg call th := by
  obtain ⟨raised, escapes⟩ := purge_raises cfg call unusable
  rintro ⟨-, right⟩
  rw [if_neg raised, escapes] at right
  cases right.1

/-- Exactly when `purge` does what is said of it. -/
theorem purge_iff (th : Thread) : Right cfg call th ↔ Condition cfg call th := by
  by_cases usable : Usable call th
  · exact right_iff_of_usable cfg call usable
  · exact iff_of_false (not_right cfg call usable) fun condition => usable condition.usable

end

/-! ## Later calls -/

section later
variable (cfg : Config) (call : Call)

omit call in
theorem stand_standing {st other : Statement} (standing : Standing) (th : Thread)
    (ne : other ≠ st) : (th.stand st standing).standing other = th.standing other :=
  Function.update_of_ne ne _ _

omit call in
theorem fail_standing {st other : Statement} (endsTransaction : Bool) (th : Thread)
    (ne : other ≠ st) : (th.fail st endsTransaction).standing other = th.standing other := by
  unfold Thread.fail
  rw [stand_standing _ _ ne]
  split_ifs <;> rfl

/-- A use of a statement leaves the others where they stand. -/
theorem exec_standing {st other : Statement} {step : Thread → Option Thread} {th : Thread}
    (ne : other ≠ st) (keeps : ∀ next, step th = some next → next.standing = th.standing) :
    (exec call st step th).2.standing other = th.standing other := by
  unfold exec
  split_ifs with done
  · rfl
  · cases call.plan st with
    | none =>
      cases steps : step th with
      | none => exact fail_standing false th ne
      | some next => exact (stand_standing .done next ne).trans (by rw [keeps next steps])
    | some fault => cases fault with
      | refused => rfl
      | raises rows endsTransaction => exact fail_standing endsTransaction th ne

theorem execReset_standing {st other : Statement} {step : Thread → Option Thread} {th : Thread}
    (ne : other ≠ st) (keeps : ∀ next, step th = some next → next.standing = th.standing) :
    (execReset call st step th).2.standing other = th.standing other := by
  rw [← exec_standing call ne keeps]
  unfold execReset
  rcases exec call st step th with ⟨_ | _, next⟩
  · rfl
  · exact stand_standing .ready next ne

theorem finish_standing {other : Statement} (raised : List Statement) (assets : List (Nat × Nat))
    (th : Thread) (ne : other ≠ .commit) :
    (finish cfg call raised assets th).thread.standing other = th.standing other := by
  have same : (execReset call .commit commitStep th).2.standing other = th.standing other :=
    execReset_standing call ne fun next commits => by
      obtain ⟨tables, -, rfl⟩ := Option.map_eq_some_iff.mp commits
      rfl
  unfold finish
  rcases commits : execReset call .commit commitStep th with ⟨_ | _, th₁⟩
  all_goals
    rw [commits] at same
    exact same

theorem tryPurge_unready {th : Thread} (unready : th.standing .unusedAssets ≠ .ready) :
    ∃ st, (tryPurge call th).thrown = some st ∧
      (tryPurge call th).thread.standing .unusedAssets = th.standing .unusedAssets := by
  have same : (execReset call .start beginStep th).2.standing .unusedAssets =
      th.standing .unusedAssets :=
    execReset_standing call (by decide) fun next begins => by rw [(of_beginStep begins).2]
  unfold tryPurge
  rcases begins : execReset call .start beginStep th with ⟨_ | _, th₁⟩
  · rw [begins] at same
    exact ⟨.start, rfl, same⟩
  · rw [begins] at same
    simp only at same ⊢
    split_ifs with tokens unused
    · exact absurd ((binds_iff call _ _).mp unused).1 (by rwa [same])
    · exact ⟨_, rfl, same⟩
    · exact ⟨_, rfl, same⟩

/-- A query that is not ready stays so, since its parameters are bound first. -/
theorem purge_unready {th : Thread} (unready : th.standing .unusedAssets ≠ .ready) :
    ((purge cfg call th).raised ≠ [] ∧ (purge cfg call th).escapes = true) ∧
      (purge cfg call th).thread.standing .unusedAssets ≠ .ready := by
  refine ⟨purge_raises cfg call fun usable => unready (usable.ready _ (by simp)), ?_⟩
  obtain ⟨st, thrown, same⟩ := tryPurge_unready call unready
  rw [← same] at unready
  unfold purge
  rcases tried : tryPurge call th with ⟨_ | _, assets, th₁⟩
  · rw [tried] at thrown
    cases thrown
  · rw [tried] at unready
    have kept : (exec call .rollback rollbackStep th₁).2.standing .unusedAssets =
        th₁.standing .unusedAssets :=
      exec_standing call (by decide) fun next undoes => by
        obtain ⟨tables, -, rfl⟩ := Option.map_eq_some_iff.mp undoes
        rfl
    simp only
    rcases undoes : exec call .rollback rollbackStep th₁ with ⟨_ | _, th₂⟩
    · rw [undoes] at kept
      exact kept ▸ unready
    · rw [undoes] at kept
      simp only [finish_standing cfg call _ _ th₂ (by decide : Statement.unusedAssets ≠ .commit)]
      exact kept ▸ unready

/-- Once the query failed, no later call comes through. -/
theorem seen_unready (calls : List Call) {th : Thread}
    (unready : th.standing .unusedAssets ≠ .ready) :
    ∀ call ∈ seen cfg calls th, call.1 ≠ [] ∧ call.2.1 = true := by
  induction calls generalizing th with
  | nil => simp [seen]
  | cons call calls ih =>
    obtain ⟨raises, still⟩ := purge_unready cfg call unready
    rw [seen, List.forall_mem_cons]
    exact ⟨raises, ih still⟩

end later

/-! ## The server -/

section server
variable (cfg : Config) (call : Call)

def rowOf (e : Nat × CdnServer.AssetRow) : AssetRow :=
  ⟨e.1, e.2.bucket, some e.2.createTs, some e.2.deleteTs⟩

/-- The tables of a server, where nothing is null. -/
def tablesOf (s : Server) : Tables where
  assets := s.assets.entries.map rowOf
  tokens := s.tokens.map fun row => ⟨some row.token, some row.assetId, some row.expireTs⟩
  distinct := by
    rw [List.map_map]
    refine List.pairwise_map.mpr (s.assets.sorted.imp fun lt => ?_)
    exact fun same => lt.ne (Int.ofNat_inj.mp same)

theorem unusedRow_tablesOf (s : Server) (now : Int) (e : Nat × CdnServer.AssetRow) :
    unusedRow now (tablesOf s).tokens (rowOf e) = unused s now e.1 e.2 := by
  rw [Bool.eq_iff_iff, unusedRow_iff]
  simp [Unowned, Aged, tablesOf, rowOf, unused]

theorem unusedAssets_tablesOf (s : Server) :
    unusedAssets call (tablesOf s) = ((s.assets.filter (unused s call.now)).entries).map rowOf := by
  rw [unusedAssets, tablesOf, List.filter_map]
  refine congrArg _ (List.filter_congr fun e _ => ?_)
  exact unusedRow_tablesOf s call.now e

theorem toUint32_cast {n : Nat} (small : n < 4294967296) : toUint32 n = n := by
  unfold toUint32
  omega

/-- A call that meets nothing wrong does to these tables what the server does to its own. -/
theorem purge_server {s : Server} {th : Thread} (usable : Usable call th)
    (tables : th.tables = tablesOf s) (files : th.files = s.files)
    (removes : ∀ path, call.removes path)
    (small : ∀ e ∈ s.assets.entries, e.1 < 4294967296 ∧ e.2.bucket < 4294967296) :
    (purge cfg call th).thread.tables = tablesOf (CdnServer.purge cfg s call.now) ∧
      (purge cfg call th).thread.files = (CdnServer.purge cfg s call.now).files := by
  obtain ⟨standing, purges⟩ := purge_quiet cfg call usable
  rw [purges, tables, files]
  constructor
  · refine Tables.ext ?_ rfl
    change (s.assets.entries.map rowOf).filter _ = List.map rowOf (List.filter _ s.assets.entries)
    rw [List.filter_map]
    refine congrArg _ (List.filter_congr fun e _ => ?_)
    exact congrArg (!·) (unusedRow_tablesOf s call.now e)
  · have folded : (CdnServer.purge cfg s call.now).files = removeFiles cfg call
        (((s.assets.filter (unused s call.now)).entries).map fun e => (e.2.bucket, e.1))
        s.files := by
      simp [CdnServer.purge, removeFiles, List.foldl_map, removes]
    funext path
    rw [folded, removeFiles_apply]
    refine if_congr (and_congr_left' ?_) rfl rfl
    rw [unusedAssets_tablesOf]
    simp only [List.mem_map, exists_exists_and_eq_and]
    refine exists_congr fun e => and_congr_right fun mem => ?_
    obtain ⟨id, bucket⟩ := small e (List.mem_of_mem_filter mem)
    rw [fileOf, rowOf, toUint32_cast id, toUint32_cast bucket]

end server

/-- An expired token of an asset that stays for good. -/
def oneToken : Tables where
  assets := [⟨1, 0, some 0, some (-1)⟩]
  tokens := [⟨some 7, some 1, some 500⟩]
  distinct := by decide

/-- A thread that did not purge yet. -/
def Thread.fresh (tables : Tables) (files : Text → Option Text) : Thread where
  tables
  begun := none
  standing := fun _ => .ready
  files

/-- The token stays, and when the last statement fails, an exception leaves the function. -/
theorem token_stays :
    ¬ Right ⟨[], []⟩ ⟨1000, fun _ => none, fun _ => true⟩ (.fresh oneToken fun _ => none) ∧
    ¬ Right ⟨[], []⟩ ⟨1000, Function.update (fun _ => none) .purgeAssets (some .refused),
      fun _ => true⟩ (.fresh oneToken fun _ => none) := by
  constructor
  · have usable : Usable ⟨1000, fun _ => none, fun _ => true⟩ (.fresh oneToken fun _ => none) :=
      ⟨rfl, by simp [Thread.fresh], by simp [Thread.fresh], by simp, by simp⟩
    rw [right_iff_of_usable _ _ usable]
    intro condition
    exact condition.live ⟨some 7, some 1, some 500⟩ (by decide) (by decide)
  · refine not_right _ _ fun usable => ?_
    have quiet := usable.quiet .purgeAssets (by simp)
    simp at quiet

end AssetPurges
