import HcOmni.Runs.Exhaustion

/-!
# The supply along a run

For every property that a transaction has created, the tokens that addresses hold together with
the cached fees are the tokens issued, as long as the identifiers of the main ecosystem last.
Once they are exhausted, two properties share an identifier and the balance is off.
-/

namespace HcOmni

open Std MapSum Program CMPTally State

variable {env : Env} {s s₀ : State} {events : List Event}

/-! ### Conservation -/

/-- Transactions are executed once and in the order of the chain. -/
def Ctx.tracked : Ctx where
  block := 0
  txid := 0
  Addr _ := True
  Place _ _ := True
  Tracked := True
  Fits := False
  Vests := True
  Strict := False
  tracked_of_strict := False.elim
  fits_of_strict := id
  clean_of_strict := Ctx.any.clean_of_strict

theorem runSuits_tracked (htxids : (events.filterMap Event.txid?).Nodup)
    (hheights : (events.filterMap Event.height?).Pairwise (· ≤ ·)) :
    RunSuits .tracked env s₀ events :=
  ⟨fun _ => htxids, fun _ _ => hheights, fun _ _ => ⟨trivial, trivial⟩, fun _ _ => trivial,
    fun _ _ _ => trivial, False.elim, False.elim, False.elim⟩

theorem sound_tracked {before after : List Event} {event : Event} {block : Int} (hstart : Genesis s₀)
    (htxids : (events.filterMap Event.txid?).Nodup)
    (hheights : (events.filterMap Event.height?).Pairwise (· ≤ ·))
    (hsplit : events = before ++ event :: after) (hrun : run env s₀ before = some s)
    (hblock : event.height? = some block) (txid : Hash) : Sound (Ctx.tracked.at block txid) s :=
  have hsuits : RunSuits .tracked env s₀ events := runSuits_tracked htxids hheights
  (hsuits.sound hstart hsplit hrun).sound block
    (fun htracked hloose _ => hsuits.height_le hsplit htracked hloose hblock) txid

theorem exists_sound_tracked (hstart : Genesis s₀) (htxids : (events.filterMap Event.txid?).Nodup)
    (hheights : (events.filterMap Event.height?).Pairwise (· ≤ ·))
    (hrun : run env s₀ events = some s) : ∃ top, Sound (Ctx.tracked.at top 0) s :=
  (runSuits_tracked htxids hheights).exists_sound hstart hrun

/-- A fixed property of which tokens are sent, and a managed one of which tokens are granted. -/
def issuedEvents : List Event := [
  samplePacket 50000 0 "issuer".toList []
    (createPayloadIssuanceFixed 1 1 0 [] [] "token".toList [] [] 100),
  samplePacket 50000 1 "issuer".toList "holder".toList (createPayloadSimpleSend 3 30),
  samplePacket 50001 0 "issuer".toList []
    (createPayloadIssuanceManaged 1 1 0 [] [] "managed".toList [] []),
  samplePacket 50002 0 "issuer".toList "holder".toList (createPayloadGrant 4 50 [])]

end HcOmni
