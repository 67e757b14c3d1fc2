import HcOmni.Core.Basic

/-!
# Consensus rules

`rules.h` and `rules.cpp`: the heights from which transaction types and features are live on
each network, and the two questions the engine asks about them.  The parameters are mutable,
since features are activated and deactivated by transactions.
-/

namespace HcOmni

def FEATURE_CLASS_C : Nat := 1
def FEATURE_METADEX : Nat := 2
def FEATURE_BETTING : Nat := 3
def FEATURE_GRANTEFFECTS : Nat := 4
def FEATURE_DEXMATH : Nat := 5
def FEATURE_SENDALL : Nat := 6
def FEATURE_SPCROWDCROSSOVER : Nat := 7
def FEATURE_TRADEALLPAIRS : Nat := 8
def FEATURE_FEES : Nat := 9
def FEATURE_STOV1 : Nat := 10
def FEATURE_FREEZENOTICE : Nat := 14

/-- Distribution happens when the cached fees reach the total number of tokens over this. -/
def OMNI_FEE_THRESHOLD : Int := 100000

/-- `CConsensusParams`: the fields the engine reads. -/
structure ConsensusParams where
  genesisBlock : Int
  minActivationBlocks : Int
  maxActivationBlocks : Int
  omniFreezeWaitPeriod : Int
  nulldataBlock : Int
  mscAlertBlock : Int
  mscSendBlock : Int
  mscDexBlock : Int
  mscSpBlock : Int
  mscManualspBlock : Int
  mscStoBlock : Int
  mscMetadexBlock : Int
  mscSendAllBlock : Int
  mscBetBlock : Int
  mscStov1Block : Int
  granteffectsFeatureBlock : Int
  dexmathFeatureBlock : Int
  spcrowdcrossoverFeatureBlock : Int
  tradeallpairsFeatureBlock : Int
  feesFeatureBlock : Int
  freezenoticeFeatureBlock : Int
  mscSendAgreement : Int
  deriving DecidableEq, Repr

def mainConsensusParams : ConsensusParams where
  genesisBlock := 46000
  minActivationBlocks := 2048
  maxActivationBlocks := 12288
  omniFreezeWaitPeriod := 0
  nulldataBlock := 395000
  mscAlertBlock := 0
  mscSendBlock := 46000
  mscDexBlock := 46000
  mscSpBlock := 46000
  mscManualspBlock := 46000
  mscStoBlock := 46000
  mscMetadexBlock := 46000
  mscSendAllBlock := 46000
  mscBetBlock := 999999
  mscStov1Block := 999999
  granteffectsFeatureBlock := 46000
  dexmathFeatureBlock := 46000
  spcrowdcrossoverFeatureBlock := 46000
  tradeallpairsFeatureBlock := 46000
  feesFeatureBlock := 999999
  freezenoticeFeatureBlock := 999999
  mscSendAgreement := 0

def testNetConsensusParams : ConsensusParams where
  genesisBlock := 1
  minActivationBlocks := 0
  maxActivationBlocks := 999999
  omniFreezeWaitPeriod := 0
  nulldataBlock := 0
  mscAlertBlock := 0
  mscSendBlock := 0
  mscDexBlock := 0
  mscSpBlock := 0
  mscManualspBlock := 0
  mscStoBlock := 0
  mscMetadexBlock := 0
  mscSendAllBlock := 0
  mscBetBlock := 999999
  mscStov1Block := 0
  granteffectsFeatureBlock := 0
  dexmathFeatureBlock := 0
  spcrowdcrossoverFeatureBlock := 0
  tradeallpairsFeatureBlock := 0
  feesFeatureBlock := 0
  freezenoticeFeatureBlock := 0
  mscSendAgreement := 0

def regTestConsensusParams : ConsensusParams :=
  { testNetConsensusParams with
    minActivationBlocks := 5
    maxActivationBlocks := 10
    omniFreezeWaitPeriod := 10
    mscStov1Block := 999999
    granteffectsFeatureBlock := 999999
    dexmathFeatureBlock := 999999
    spcrowdcrossoverFeatureBlock := 999999
    tradeallpairsFeatureBlock := 999999
    feesFeatureBlock := 999999
    freezenoticeFeatureBlock := 999999 }

/-- A transaction type and version, whether it may name property 0, and its first block. -/
structure TransactionRestriction where
  txType : Nat
  txVersion : Nat
  allowWildcard : Bool
  activationBlock : Int
  deriving DecidableEq, Repr

namespace ConsensusParams

def getRestrictions (params : ConsensusParams) : List TransactionRestriction :=
  [ ⟨OMNICORE_MESSAGE_TYPE_ALERT, 0xFFFF, true, params.mscAlertBlock⟩,
    ⟨OMNICORE_MESSAGE_TYPE_ACTIVATION, 0xFFFF, true, params.mscAlertBlock⟩,
    ⟨OMNICORE_MESSAGE_TYPE_DEACTIVATION, 0xFFFF, true, params.mscAlertBlock⟩,
    ⟨MSC_TYPE_SIMPLE_SEND, MP_TX_PKT_V0, false, params.mscSendBlock⟩,
    ⟨MSC_TYPE_TRADE_OFFER, MP_TX_PKT_V0, false, params.mscDexBlock⟩,
    ⟨MSC_TYPE_TRADE_OFFER, MP_TX_PKT_V1, false, params.mscDexBlock⟩,
    ⟨MSC_TYPE_ACCEPT_OFFER_BTC, MP_TX_PKT_V0, false, params.mscDexBlock⟩,
    ⟨MSC_TYPE_CREATE_PROPERTY_FIXED, MP_TX_PKT_V0, false, params.mscSpBlock⟩,
    ⟨MSC_TYPE_CREATE_PROPERTY_VARIABLE, MP_TX_PKT_V0, false, params.mscSpBlock⟩,
    ⟨MSC_TYPE_CREATE_PROPERTY_VARIABLE, MP_TX_PKT_V1, false, params.mscSpBlock⟩,
    ⟨MSC_TYPE_CLOSE_CROWDSALE, MP_TX_PKT_V0, false, params.mscSpBlock⟩,
    ⟨MSC_TYPE_CREATE_PROPERTY_MANUAL, MP_TX_PKT_V0, false, params.mscManualspBlock⟩,
    ⟨MSC_TYPE_GRANT_PROPERTY_TOKENS, MP_TX_PKT_V0, false, params.mscManualspBlock⟩,
    ⟨MSC_TYPE_REVOKE_PROPERTY_TOKENS, MP_TX_PKT_V0, false, params.mscManualspBlock⟩,
    ⟨MSC_TYPE_CHANGE_ISSUER_ADDRESS, MP_TX_PKT_V0, false, params.mscManualspBlock⟩,
    ⟨MSC_TYPE_ENABLE_FREEZING, MP_TX_PKT_V0, false, params.mscManualspBlock⟩,
    ⟨MSC_TYPE_DISABLE_FREEZING, MP_TX_PKT_V0, false, params.mscManualspBlock⟩,
    ⟨MSC_TYPE_FREEZE_PROPERTY_TOKENS, MP_TX_PKT_V0, false, params.mscManualspBlock⟩,
    ⟨MSC_TYPE_UNFREEZE_PROPERTY_TOKENS, MP_TX_PKT_V0, false, params.mscManualspBlock⟩,
    ⟨MSC_TYPE_SEND_TO_OWNERS, MP_TX_PKT_V0, false, params.mscStoBlock⟩,
    ⟨MSC_TYPE_SEND_TO_OWNERS, MP_TX_PKT_V1, false, params.mscStov1Block⟩,
    ⟨MSC_TYPE_METADEX_TRADE, MP_TX_PKT_V0, false, params.mscMetadexBlock⟩,
    ⟨MSC_TYPE_METADEX_CANCEL_PRICE, MP_TX_PKT_V0, false, params.mscMetadexBlock⟩,
    ⟨MSC_TYPE_METADEX_CANCEL_PAIR, MP_TX_PKT_V0, false, params.mscMetadexBlock⟩,
    ⟨MSC_TYPE_METADEX_CANCEL_ECOSYSTEM, MP_TX_PKT_V0, false, params.mscMetadexBlock⟩,
    ⟨MSC_TYPE_SEND_ALL, MP_TX_PKT_V0, false, params.mscSendAllBlock⟩,
    ⟨MSC_TYPE_SEND_AGREEMENT, MP_TX_PKT_V0, false, params.mscSendAgreement⟩,
    ⟨MSC_TYPE_OFFER_ACCEPT_A_BET, MP_TX_PKT_V0, false, params.mscBetBlock⟩ ]

/-- The height stored for a feature, if the feature is known. -/
def featureBlock (params : ConsensusParams) (featureId : Nat) : Option Int :=
  if featureId = FEATURE_CLASS_C then some params.nulldataBlock
  else if featureId = FEATURE_METADEX then some params.mscMetadexBlock
  else if featureId = FEATURE_BETTING then some params.mscBetBlock
  else if featureId = FEATURE_GRANTEFFECTS then some params.granteffectsFeatureBlock
  else if featureId = FEATURE_DEXMATH then some params.dexmathFeatureBlock
  else if featureId = FEATURE_SENDALL then some params.mscSendAllBlock
  else if featureId = FEATURE_SPCROWDCROSSOVER then some params.spcrowdcrossoverFeatureBlock
  else if featureId = FEATURE_TRADEALLPAIRS then some params.tradeallpairsFeatureBlock
  else if featureId = FEATURE_FEES then some params.feesFeatureBlock
  else if featureId = FEATURE_STOV1 then some params.mscStov1Block
  else if featureId = FEATURE_FREEZENOTICE then some params.freezenoticeFeatureBlock
  else none

/-- The parameters with the height of a feature replaced; an unknown feature changes nothing. -/
def setFeatureBlock (params : ConsensusParams) (featureId : Nat) (block : Int) : ConsensusParams :=
  if featureId = FEATURE_CLASS_C then { params with nulldataBlock := block }
  else if featureId = FEATURE_METADEX then { params with mscMetadexBlock := block }
  else if featureId = FEATURE_BETTING then { params with mscBetBlock := block }
  else if featureId = FEATURE_GRANTEFFECTS then { params with granteffectsFeatureBlock := block }
  else if featureId = FEATURE_DEXMATH then { params with dexmathFeatureBlock := block }
  else if featureId = FEATURE_SENDALL then { params with mscSendAllBlock := block }
  else if featureId = FEATURE_SPCROWDCROSSOVER then
    { params with spcrowdcrossoverFeatureBlock := block }
  else if featureId = FEATURE_TRADEALLPAIRS then { params with tradeallpairsFeatureBlock := block }
  else if featureId = FEATURE_FEES then { params with feesFeatureBlock := block }
  else if featureId = FEATURE_STOV1 then { params with mscStov1Block := block }
  else if featureId = FEATURE_FREEZENOTICE then
    { params with freezenoticeFeatureBlock := block }
  else params

def isFeatureActivated (params : ConsensusParams) (featureId : Nat) (transactionBlock : Int) :
    Bool :=
  match params.featureBlock featureId with
  | some activationBlock => decide (activationBlock ≤ transactionBlock)
  | none => false

/-- Whether the transaction type and version is supported and enabled.  The test ecosystem has
no height restriction, and property 0 is a wildcard that must be allowed explicitly. -/
def isTransactionTypeAllowed (params : ConsensusParams) (txBlock : Int) (txProperty : PropertyId)
    (txType version : Nat) : Bool :=
  params.getRestrictions.any fun entry =>
    entry.txType == txType && entry.txVersion == version &&
      !(txProperty == OMNI_PROPERTY_BTC && !entry.allowWildcard) &&
      (isTestEcosystemProperty txProperty || decide (entry.activationBlock ≤ txBlock))

end ConsensusParams

end HcOmni
