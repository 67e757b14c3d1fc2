import HcOmni.Core.System
import HcOmni.Lib.Numeral

/-!
# State files

`persistence.cpp`: the state is written to six text files, one line per record and a last line with
the hash of all lines before it, and read back line by line.  Every record type has a format of its
own, whose parts are found again by splitting at separators.

The bytes of a file are modelled exactly.  The hash function is an arbitrary one, and so is the
order in which the hash map of the tallies is traversed.
-/

namespace HcOmni

open Std Text

/-! ### Hashes as texts -/

/-- `isspace` -/
def isSpace (c : Char) : Bool :=
  c == ' ' || c == '\t' || c == '\n' || c == '\x0b' || c == '\x0c' || c == '\r'

/-- `uint256::GetHex`, `uint256::ToString` -/
def uint256ToString (hash : Hash) : Str := hexDigits 64 hash

/-- `psz[0] == '0' && tolower(psz[1]) == 'x'` -/
def skip0x : Str → Str
  | '0' :: 'x' :: rest => rest
  | '0' :: 'X' :: rest => rest
  | text => text

/-- `uint256S`: the last 64 of the digits that come first. -/
def uint256S (text : Str) : Hash :=
  ofHexDigits ((skip0x (text.dropWhile isSpace)).takeWhile fun c => (hexDigit? c).isSome) % 2 ^ 256

/-! ### Bytes as texts -/

/-- `HexStr` -/
def hexStr (bytes : List UInt8) : Str := bytes.flatMap fun byte => hexDigits 2 byte.toNat

/-- `ParseHex`: pairs of hexadecimal digits, with blanks between the pairs. -/
def parseHex (text : Str) : List UInt8 :=
  match text with
  | [] => []
  | [_] => []
  | c :: d :: rest =>
      if isSpace c then parseHex (d :: rest)
      else
        match hexDigit? c, hexDigit? d with
        | some hi, some lo => UInt8.ofNat (16 * hi + lo) :: parseHex rest
        | _, _ => []

/-! ### The surroundings -/

/-- What the files depend on besides the state. -/
structure FileEnv where
  /-- the double hash of everything that was handed to `SHA256_Update` -/
  sha256 : Str → Hash
  /-- the order in which the tallies are traversed, a `std::unordered_map` -/
  tallyOrder : List (Address × CMPTally) → List (Address × CMPTally)
  tallyOrder_perm : ∀ entries, (tallyOrder entries).Perm entries

inductive FileType where
  | BALANCES
  | OFFERS
  | ACCEPTS
  | GLOBALS
  | CROWDSALES
  | MDEXORDERS
  deriving DecidableEq, Repr

/-! ### Writing -/

/-- The fields of a line, joined by commas. -/
def fields (tokens : List Str) : Str := [','].intercalate tokens

/-- The amounts of one property, without those that are pending; nothing if all are zero. -/
def balanceItem (tally : CMPTally) (propertyId : PropertyId) : Option Str :=
  let balance := tally.getMoney propertyId .BALANCE
  let sellReserved := tally.getMoney propertyId .SELLOFFER_RESERVE
  let acceptReserved := tally.getMoney propertyId .ACCEPT_RESERVE
  let metadexReserved := tally.getMoney propertyId .METADEX_RESERVE
  if balance = 0 ∧ sellReserved = 0 ∧ acceptReserved = 0 ∧ metadexReserved = 0 then none
  else some (decimal propertyId ++ ':' :: fields
    [showInt balance, showInt sellReserved, showInt acceptReserved, showInt metadexReserved])

/-- The line of an address, none for an empty wallet. -/
def balanceLine (address : Address) (tally : CMPTally) : Option Str :=
  match tally.properties.filterMap (balanceItem tally) with
  | [] => none
  | items => some (address ++ '=' :: items.flatMap (· ++ [';']))

def writeMscBalances (fenv : FileEnv) (s : State) : List Str :=
  (fenv.tallyOrder s.mpTallyMap.toList).filterMap fun entry => balanceLine entry.1 entry.2

/-- `CMPOffer::saveOffer` -/
def CMPOffer.saveOffer (offer : CMPOffer) (address : Address) : Str :=
  fields [address, showInt offer.offerBlock, showInt offer.offerAmountOriginal,
    decimal offer.property, showInt offer.btcDesiredOriginal, decimal OMNI_PROPERTY_BTC,
    showInt offer.minFee, decimal offer.blocktimelimit, uint256ToString offer.txid]

def writeMpOffers (s : State) : List Str :=
  s.myOffers.toList.map fun entry =>
    -- decompose the key for the address
    let vstr := splitTokens (· == '-') entry.1
    entry.2.saveOffer (vstr.getD 0 [])

/-- `CMPAccept::saveAccept` -/
def CMPAccept.saveAccept (accept : CMPAccept) (address buyer : Address) : Str :=
  fields [address, decimal accept.property, buyer, showInt accept.block,
    showInt accept.acceptAmountRemaining, showInt accept.acceptAmountOriginal,
    decimal accept.blocktimelimit, showInt accept.offerAmountOriginal,
    showInt accept.btcDesiredOriginal, uint256ToString accept.offerTxid]

/-- `write_mp_accepts`: the second part of the key is handed on as the buyer.  There is one, since
every key has a separator. -/
def writeMpAccepts (s : State) : List Str :=
  s.myAccepts.toList.map fun entry =>
    let vstr := splitTokens isKeySeparator entry.1
    entry.2.saveAccept (vstr.getD 0 []) (vstr.getD 1 [])

def writeGlobalsState (s : State) : List Str :=
  [fields [showInt s.aux.exodusPrev, decimal (s.mySps.peekNextSPID OMNI_PROPERTY_MSC),
    decimal (s.mySps.peekNextSPID OMNI_PROPERTY_TMSC)]]

/-- One participation in a crowdsale: `txid=value;value;...` -/
def participationItem (entry : Hash × List Int) : Str :=
  uint256ToString entry.1 ++ '=' :: [';'].intercalate (entry.2.map showInt)

/-- `CMPCrowd::saveCrowdSale` -/
def CMPCrowd.saveCrowdSale (crowd : CMPCrowd) (addr : Address) : Str :=
  fields ([addr, decimal crowd.propertyId, showInt crowd.nValue, decimal crowd.propertyDesired,
    showInt crowd.deadline, decimal crowd.earlyBird, decimal crowd.percentage,
    showInt crowd.uCreated, showInt crowd.iCreated] ++
      crowd.txFundraiserData.toList.map participationItem)

def writeMpCrowdsales (s : State) : List Str :=
  s.myCrowds.toList.map fun entry => entry.2.saveCrowdSale entry.1

/-- `CMPMetaDEx::saveOffer` -/
def CMPMetaDEx.saveOffer (order : CMPMetaDEx) : Str :=
  fields [order.addr, showInt order.block, showInt order.amountForsale, decimal order.property,
    showInt order.amountDesired, decimal order.desiredProperty, decimal order.subaction,
    decimal order.idx, uint256ToString order.txid, showInt order.amountRemaining]

def writeMpMetadex (s : State) : List Str :=
  s.bookOrders.map fun entry => entry.2.2.saveOffer

def writeLines (fenv : FileEnv) (s : State) : FileType → List Str
  | .BALANCES => writeMscBalances fenv s
  | .OFFERS => writeMpOffers s
  | .ACCEPTS => writeMpAccepts s
  | .GLOBALS => writeGlobalsState s
  | .CROWDSALES => writeMpCrowdsales s
  | .MDEXORDERS => writeMpMetadex s

/-- `write_state_fileEx`: the contents of the file. -/
def writeStateFile (fenv : FileEnv) (s : State) (what : FileType) : Str :=
  let lines := writeLines fenv s what
  (lines ++ ['!' :: uint256ToString (fenv.sha256 lines.flatten)]).flatMap (· ++ ['\n'])

/-! ### Reading -/

/-- `boost::lexical_cast` throws if the text is not a number of the type. -/
def castInt (width : Nat) (text : Str) : Op Int :=
  match lexicalCastInt width text with
  | some x => pure x
  | none => throw .thrown

def castNat (width : Nat) (text : Str) : Op Nat :=
  match lexicalCastNat width text with
  | some n => pure n
  | none => throw .thrown

/-- `uint8_t x = boost::lexical_cast<unsigned int>(text)` -/
def castByte (text : Str) : Op Nat := do
  let n ← castNat 32 text
  pure (n % 256)

/-- The separators of the fields of a line. -/
def isFieldSeparator (c : Char) : Bool := c == ' ' || c == ',' || c == '='

/-- `if (amount) update_tally_map(...)`, whose result is not looked at. -/
def restoreAmount (address : Address) (propertyId : PropertyId) (amount : Int)
    (ttype : TallyType) : Op Unit :=
  if amount ≠ 0 then do
    let _ ← updateTallyMap address propertyId amount ttype
    pure ()
  else
    pure ()

/-- One tuple of a line of balances: `propertyid:balance,sellreserved,acceptreserved,
metadexreserved`. -/
def inputBalanceItem (address : Address) (item : Str) : Op Unit :=
  if item.isEmpty then pure ()
  else
    match splitTokens (· == ':') item with
    | [property, balances] =>
        match splitTokens (· == ',') balances with
        | [balance, sellReserved, acceptReserved, metadexReserved] => do
            let propertyId ← castNat 32 property
            let balance ← castInt 64 balance
            let sellReserved ← castInt 64 sellReserved
            let acceptReserved ← castInt 64 acceptReserved
            let metadexReserved ← castInt 64 metadexReserved
            restoreAmount address propertyId balance .BALANCE
            restoreAmount address propertyId sellReserved .SELLOFFER_RESERVE
            restoreAmount address propertyId acceptReserved .ACCEPT_RESERVE
            restoreAmount address propertyId metadexReserved .METADEX_RESERVE
        | _ => throw (.ret (-1))
    | _ => throw (.ret (-1))

def inputMscBalancesString (line : Str) : Op Int :=
  match splitTokens (· == '=') line with
  | [strAddress, data] => do
      (splitTokens (· == ';') data).forM (inputBalanceItem strAddress)
      pure 0
  | _ => pure (-1)

def inputMpOffersString (line : Str) : Op Int :=
  match splitTokens isFieldSeparator line with
  | [sellerAddr, offerBlock, amountOriginal, prop, btcDesired, propDesired, minFee, blocktimelimit,
      txid] => do
      let offerBlock ← castInt 32 offerBlock
      let amountOriginal ← castInt 64 amountOriginal
      let prop ← castNat 32 prop
      let btcDesired ← castInt 64 btcDesired
      let propDesired ← castNat 32 propDesired
      let minFee ← castInt 64 minFee
      let blocktimelimit ← castByte blocktimelimit
      rejectIf (propDesired != OMNI_PROPERTY_BTC) (-1)
      let newOffer : CMPOffer :=
        { offerBlock := offerBlock, offerAmountOriginal := amountOriginal, property := prop,
          btcDesiredOriginal := btcDesired, minFee := minFee, blocktimelimit := blocktimelimit,
          txid := uint256S txid }
      let s ← get
      rejectIf (s.myOffers.contains (sellofferKey sellerAddr prop)) (-1)
      set { s with myOffers := s.myOffers.insert (sellofferKey sellerAddr prop) newOffer }
      pure 0
  | _ => pure (-1)

def inputMpAcceptsString (line : Str) : Op Int :=
  match splitTokens isFieldSeparator line with
  | [sellerAddr, prop, buyerAddr, nBlock, amountRemaining, amountOriginal, blocktimelimit,
      offerOriginal, btcDesired, txid] => do
      let prop ← castNat 32 prop
      let nBlock := atoi nBlock
      let amountRemaining ← castInt 64 amountRemaining
      let amountOriginal ← castNat 64 amountOriginal
      let blocktimelimit := (atoi blocktimelimit % 256).toNat
      let offerOriginal ← castInt 64 offerOriginal
      let btcDesired ← castInt 64 btcDesired
      let newAccept : CMPAccept :=
        { acceptAmountOriginal := toInt64 amountOriginal, acceptAmountRemaining := amountRemaining,
          blocktimelimit := blocktimelimit, property := prop, offerAmountOriginal := offerOriginal,
          btcDesiredOriginal := btcDesired, offerTxid := uint256S txid, block := nBlock }
      let s ← get
      rejectIf (s.myAccepts.contains (acceptKey sellerAddr buyerAddr prop)) (-1)
      set { s with myAccepts := s.myAccepts.insert (acceptKey sellerAddr buyerAddr prop) newAccept }
      pure 0
  | _ => pure (-1)

/-- `CMPSPInfo::init` -/
def CMPSPInfo.init (sps : CMPSPInfo) (nextSPID nextTestSPID : PropertyId) : CMPSPInfo :=
  { sps with nextSpid := nextSPID, nextTestSpid := nextTestSPID }

def inputGlobalsStateString (line : Str) : Op Int :=
  match splitTokens isFieldSeparator line with
  | [exodusPrev, nextSPID, nextTestSPID] => do
      let exodusPrev ← castInt 64 exodusPrev
      let nextSPID ← castNat 32 nextSPID
      let nextTestSPID ← castNat 32 nextTestSPID
      modify fun s =>
        { s with mySps := s.mySps.init nextSPID nextTestSPID, aux.exodusPrev := exodusPrev }
      pure 0
  | _ => pure (-1)

/-- The remaining fields of a crowdsale: its participations, each of them added by
`insertDatabase`, which keeps what is there already. -/
def inputParticipation (data : ExtTreeMap Hash (List Int) compare) (item : Str) :
    Op (ExtTreeMap Hash (List Int) compare) :=
  match splitTokens (· == '=') item with
  | [txid, values] => do
      let vals ← (splitTokens (· == ';') values).mapM (castInt 64)
      pure (data.insertIfNew (uint256S txid) vals)
  | _ => throw (.ret (-1))

def inputMpCrowdsaleString (line : Str) : Op Int :=
  match splitTokens (fun c => c == ' ' || c == ',') line with
  | sellerAddr :: propertyId :: nValue :: propertyDesired :: deadline :: earlyBird :: percentage ::
      uCreated :: iCreated :: entries => do
      let propertyId ← castNat 32 propertyId
      let nValue ← castInt 64 nValue
      let propertyDesired ← castNat 32 propertyDesired
      let deadline ← castInt 64 deadline
      let earlyBird ← castByte earlyBird
      let percentage ← castByte percentage
      let uCreated ← castInt 64 uCreated
      let iCreated ← castInt 64 iCreated
      let data ← entries.foldlM inputParticipation ∅
      let newCrowdsale : CMPCrowd :=
        { propertyId := propertyId, nValue := nValue, propertyDesired := propertyDesired,
          deadline := deadline, earlyBird := earlyBird, percentage := percentage,
          uCreated := uCreated, iCreated := iCreated, txFundraiserData := data }
      let s ← get
      rejectIf (s.myCrowds.contains sellerAddr) (-1)
      set { s with myCrowds := s.myCrowds.insert sellerAddr newCrowdsale }
      pure 0
  | _ => pure (-1)

def inputMpMdexorderString (line : Str) : Op Int :=
  match splitTokens isFieldSeparator line with
  | [addr, block, amountForsale, property, amountDesired, desiredProperty, subaction, idx, txid,
      amountRemaining] => do
      let block ← castInt 32 block
      let amountForsale ← castInt 64 amountForsale
      let property ← castNat 32 property
      let amountDesired ← castInt 64 amountDesired
      let desiredProperty ← castNat 32 desiredProperty
      let subaction ← castByte subaction
      let idx ← castNat 32 idx
      let amountRemaining ← castInt 64 amountRemaining
      let inserted ← metaDExInsert
        { addr := addr, block := block, property := property, amountForsale := amountForsale,
          desiredProperty := desiredProperty, amountDesired := amountDesired, txid := uint256S txid,
          idx := idx, subaction := subaction, amountRemaining := amountRemaining }
      rejectIf (!inserted) (-1)
      pure 0
  | _ => pure (-1)

def inputLineFunc : FileType → Str → Op Int
  | .BALANCES => inputMscBalancesString
  | .OFFERS => inputMpOffersString
  | .ACCEPTS => inputMpAcceptsString
  | .GLOBALS => inputGlobalsStateString
  | .CROWDSALES => inputMpCrowdsaleString
  | .MDEXORDERS => inputMpMdexorderString

/-- The collection that a file replaces is emptied first. -/
def State.clearFor (s : State) : FileType → State
  | .BALANCES => { s with mpTallyMap := ∅ }
  | .OFFERS => { s with myOffers := ∅ }
  | .ACCEPTS => { s with myAccepts := ∅ }
  | .GLOBALS => s
  | .CROWDSALES => { s with myCrowds := ∅ }
  | .MDEXORDERS => { s with metadex := ∅ }

/-- The loop over the lines.  Returns whether it was not broken off, the hash found in the file,
and the text that was hashed. -/
def restoreLines (input : Str → Op Int) (verifyHash : Bool) :
    (fileHash hashed : Str) → List Str → Op (Bool × Str × Str)
  | fileHash, hashed, [] => pure (true, fileHash, hashed)
  | fileHash, hashed, line :: rest =>
      if line.isEmpty || line.head? == some '#' then restoreLines input verifyHash fileHash hashed rest
      else
        -- remove \r if the file came from Windows
        let line := line.filter (· != '\r')
        if line.head? == some '!' then restoreLines input verifyHash line.tail hashed rest
        else do
          let hashed := if verifyHash then hashed ++ line else hashed
          let rc ← callRc (input line)
          if rc < 0 then pure (false, fileHash, hashed)
          else restoreLines input verifyHash fileHash hashed rest

/-- `boost::iequals` -/
def iequals (text text' : Str) : Bool := text.map Char.toLower == text'.map Char.toLower

/-- `RestoreInMemoryState`; no file if it cannot be opened. -/
def restoreInMemoryState (fenv : FileEnv) (file : Option Str) (what : FileType)
    (verifyHash : Bool) : Op Int := do
  modify fun s => s.clearFor what
  match file with
  | none => pure (-1)
  | some text => do
      let (complete, fileHash, hashed) ←
        restoreLines (inputLineFunc what) verifyHash [] [] (text.splitOn '\n')
      if complete && (!verifyHash || iequals (uint256ToString (fenv.sha256 hashed)) fileHash) then
        pure 0
      else
        pure (-1)

end HcOmni
