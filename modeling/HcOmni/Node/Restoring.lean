import HcOmni.Conformance.Parts
import HcOmni.Node.Waterline

/-!
# What restoring a state file touches

`RestoreInMemoryState` reads balances, offers, accepts, crowdsales, orders and the global
counters.  Whatever a file contains, and wherever reading it ends, the other parts of the
state are left as they are.
-/

namespace HcOmni

open Std Program Text MapSum

variable {n n' u : Node} {nenv : NodeEnv} {fenv : FileEnv}

section Restoring

variable {s : State} {what : FileType}

theorem reads_castInt {width : Nat} {text : Str} :
    Reads (castInt width text) (fun _ => True) (fun _ => True) s := by
  unfold castInt
  cases lexicalCastInt width text with
  | some x => exact .pure trivial
  | none => exact .throw trivial

theorem reads_castNat {width : Nat} {text : Str} :
    Reads (castNat width text) (fun _ => True) (fun _ => True) s := by
  unfold castNat
  cases lexicalCastNat width text with
  | some x => exact .pure trivial
  | none => exact .throw trivial

theorem reads_castByte {text : Str} : Reads (castByte text) (fun _ => True) (fun _ => True) s :=
  .bind reads_castNat fun _ _ => .pure trivial

/-- The collections that are stored in files, and the counters.  The properties are not among
them. -/
def fileParts : List Part :=
  [.tally .BALANCE, .tally .SELLOFFER_RESERVE, .tally .ACCEPT_RESERVE, .tally .METADEX_RESERVE,
    .tally .PENDING, .offers, .accepts, .crowds, .book, .counters]

theorem touches_restoreAmount {a : Address} {p : PropertyId} {n : Int} {t : TallyType} :
    Touches [.tally t] (restoreAmount a p n t) s :=
  .ite (.bind touches_updateTallyMap fun _ _ => .pure) .pure

theorem touches_inputBalanceItem {a : Address} {item : Str} :
    Touches fileParts (inputBalanceItem a item) s := by
  unfold inputBalanceItem
  refine .ite .pure ?_
  split
  · split
    · refine .reads reads_castNat fun _ _ => .reads reads_castInt fun _ _ => .reads reads_castInt
        fun _ _ => .reads reads_castInt fun _ _ => .reads reads_castInt fun _ _ => ?_
      refine .bind (touches_restoreAmount.mono (by decide)) fun _ _ => ?_
      refine .bind (touches_restoreAmount.mono (by decide)) fun _ _ => ?_
      refine .bind (touches_restoreAmount.mono (by decide)) fun _ _ => ?_
      exact touches_restoreAmount.mono (by decide)
    · exact .throw
  · exact .throw

theorem touches_inputMscBalancesString {line : Str} :
    Touches fileParts (inputMscBalancesString line) s := by
  unfold inputMscBalancesString
  split
  · exact .bind (.forM (fun _ _ => touches_inputBalanceItem) _ _) fun _ _ => .pure
  · exact .pure

theorem touches_inputMpOffersString {line : Str} :
    Touches fileParts (inputMpOffersString line) s := by
  unfold inputMpOffersString
  split
  · refine .reads reads_castInt fun _ _ => .reads reads_castInt fun _ _ => .reads reads_castNat
      fun _ _ => .reads reads_castInt fun _ _ => .reads reads_castNat fun _ _ =>
        .reads reads_castInt fun _ _ => .reads reads_castByte fun _ _ => ?_
    refine touches_rejectIf (.get (touches_rejectIf (.bind (.set ?_) fun _ _ => .pure)))
    exact agree_offers.mono (by decide)
  · exact .pure

theorem touches_inputMpAcceptsString {line : Str} :
    Touches fileParts (inputMpAcceptsString line) s := by
  unfold inputMpAcceptsString
  split
  · refine .reads reads_castNat fun _ _ => .reads reads_castInt fun _ _ => .reads reads_castNat
      fun _ _ => .reads reads_castInt fun _ _ => .reads reads_castInt fun _ _ => ?_
    refine .get (touches_rejectIf (.bind (.set ?_) fun _ _ => .pure))
    exact agree_accepts.mono (by decide)
  · exact .pure

theorem touches_inputGlobalsStateString {line : Str} :
    Touches fileParts (inputGlobalsStateString line) s := by
  unfold inputGlobalsStateString
  split
  · refine .reads reads_castInt fun _ _ => .reads reads_castNat fun _ _ => .reads reads_castNat
      fun _ _ => .bind (.modify ?_) fun _ _ => .pure
    intro part hpart
    cases part with
    | counters => exact absurd (by decide) hpart
    | _ => rfl
  · exact .pure

theorem reads_inputParticipation {data : ExtTreeMap Hash (List Int) compare} {item : Str} :
    Reads (inputParticipation data item) (fun _ => True) (fun _ => True) s := by
  have hvalues : ∀ values : List Str,
      Reads (values.mapM (castInt 64)) (fun _ => True) (fun _ => True) s := by
    intro values
    induction values with
    | nil => exact .pure trivial
    | cons value rest ih =>
      rw [List.mapM_cons]
      exact .bind reads_castInt fun _ _ => .bind ih fun _ _ => .pure trivial
  unfold inputParticipation
  split
  · exact .bind (hvalues _) fun _ _ => .pure trivial
  · exact .throw trivial

theorem touches_inputMpCrowdsaleString {line : Str} :
    Touches fileParts (inputMpCrowdsaleString line) s := by
  have hentries : ∀ (entries : List Str) (data : ExtTreeMap Hash (List Int) compare),
      Reads (entries.foldlM inputParticipation data) (fun _ => True) (fun _ => True) s := by
    intro entries
    induction entries with
    | nil => exact fun _ => .pure trivial
    | cons entry rest ih =>
      intro data
      rw [List.foldlM_cons]
      exact .bind reads_inputParticipation fun _ _ => ih _
  unfold inputMpCrowdsaleString
  split
  · refine .reads reads_castNat fun _ _ => .reads reads_castInt fun _ _ => .reads reads_castNat
      fun _ _ => .reads reads_castInt fun _ _ => .reads reads_castByte fun _ _ =>
        .reads reads_castByte fun _ _ => .reads reads_castInt fun _ _ => .reads reads_castInt
          fun _ _ => .reads (hentries _ _) fun _ _ => ?_
    refine .get (touches_rejectIf (.bind (.set ?_) fun _ _ => .pure))
    exact agree_crowds.mono (by decide)
  · exact .pure

theorem touches_inputMpMdexorderString {line : Str} :
    Touches fileParts (inputMpMdexorderString line) s := by
  unfold inputMpMdexorderString
  split
  · refine .reads reads_castInt fun _ _ => .reads reads_castInt fun _ _ => .reads reads_castNat
      fun _ _ => .reads reads_castInt fun _ _ => .reads reads_castNat fun _ _ =>
        .reads reads_castByte fun _ _ => .reads reads_castNat fun _ _ => .reads reads_castInt
          fun _ _ => ?_
    exact .bind (touches_metaDExInsert.mono (by decide)) fun _ _ => touches_rejectIf .pure
  · exact .pure

theorem touches_inputLineFunc {line : Str} : Touches fileParts (inputLineFunc what line) s := by
  cases what with
  | BALANCES => exact touches_inputMscBalancesString
  | OFFERS => exact touches_inputMpOffersString
  | ACCEPTS => exact touches_inputMpAcceptsString
  | GLOBALS => exact touches_inputGlobalsStateString
  | CROWDSALES => exact touches_inputMpCrowdsaleString
  | MDEXORDERS => exact touches_inputMpMdexorderString

theorem touches_restoreLines {verifyHash : Bool} :
    ∀ (lines : List Str) (fileHash hashed : Str) (s : State),
      Touches fileParts (restoreLines (inputLineFunc what) verifyHash fileHash hashed lines) s
  | [], _, _, _ => .pure
  | _ :: rest, _, _, _ => .ite (touches_restoreLines rest _ _ _) (.ite
      (touches_restoreLines rest _ _ _) (.bind (touches_callRc touches_inputLineFunc) fun _ _ =>
        .ite .pure (touches_restoreLines rest _ _ _)))

theorem agree_clearFor : stateParts.Agree fileParts s (s.clearFor what) := by
  cases what with
  | BALANCES =>
    intro part hpart
    cases part with
    | tally ttype => cases ttype <;> exact absurd (by decide) hpart
    | _ => rfl
  | OFFERS => exact agree_offers.mono (by decide)
  | ACCEPTS => exact agree_accepts.mono (by decide)
  | GLOBALS => exact Parts.Agree.refl s
  | CROWDSALES => exact agree_crowds.mono (by decide)
  | MDEXORDERS => exact agree_book.mono (by decide)

theorem touches_restoreInMemoryState {file : Option Str} {verifyHash : Bool} :
    Touches fileParts (restoreInMemoryState fenv file what verifyHash) s := by
  refine .bind (.modify agree_clearFor) fun _ _ => ?_
  cases file with
  | none => exact .pure
  | some text => exact .bind (touches_restoreLines _ _ _ _) fun _ _ => .ite .pure .pure

theorem touches_restoreFiles {files : StateFiles} :
    ∀ (left : List FileType) (s : State), Touches fileParts (restoreFiles fenv files left) s
  | [], _ => .pure
  | _ :: rest, _ => .bind touches_restoreInMemoryState fun _ _ =>
    .ite .pure (touches_restoreFiles rest _)

end Restoring

end HcOmni
