import RobotMoney.Lib.Address

/-!
# The configuration of the payment client

`Config` as it is read from the operator's TOML.  Paths are their text.
-/

namespace RobotMoney.Client

structure SignerConfig where
  allowSoftwareFallback : Bool
  keystorePath : String
  deriving DecidableEq

structure LogConfig where
  level : String
  dir : String
  rotateSizeMb : ℕ
  keepFiles : ℕ
  deriving DecidableEq

structure Config where
  chainId : ℕ
  rpcUrl : String
  gatewayAddress : String
  usdcAddress : String
  vaultAddress : String
  registryAddress : Option String
  routerAddress : Option String
  governanceAddress : Option String
  timelockAddress : Option String
  gatewayRuntimeHash : String
  maxFeePerGasCap : Option ℕ
  maxPriorityFeePerGasCap : Option ℕ
  stateDir : Option String
  signer : SignerConfig
  log : LogConfig
  deriving DecidableEq

end RobotMoney.Client
