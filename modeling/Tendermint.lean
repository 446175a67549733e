import Tendermint.Lib.Rust
import Tendermint.Lib.Slice
import Tendermint.Lib.AList
import Tendermint.Lib.Loop
import Tendermint.Types.Scalars
import Tendermint.Types.Identifiers
import Tendermint.Types.Crypto
import Tendermint.Lib.Merkle
import Tendermint.Types.Merkle
import Tendermint.Types.Proto
import Tendermint.Types.Validator
import Tendermint.Types.TrustThreshold
import Tendermint.Types.Block
import Tendermint.Types.Vote
import Tendermint.Types.Proposal
import Tendermint.Verifier.Types
import Tendermint.Verifier.VotingPower
import Tendermint.Verifier.Predicates
import Tendermint.Verifier.PredicateVerifier
import Tendermint.LightClient.Store
import Tendermint.LightClient.Components
import Tendermint.LightClient.State
import Tendermint.LightClient.LightClient
import Tendermint.LightClient.Forward
import Tendermint.P2P.SecretConnection
import Tendermint.P2P.Handshake
import Tendermint.Lib.Stream
import Tendermint.P2P.ByteStream
import Tendermint.Abci.Event
import Tendermint.LightClient.LightStore
import Tendermint.LightClient.Sled
import Tendermint.LightClient.StoreAgreement
import Tendermint.Rpc.Router
import Tendermint.Rpc.WebSocket
import Tendermint.Lib.Peg
import Tendermint.Rpc.Query
import Tendermint.Lib.Varint
import Tendermint.Abci.Codec
import Tendermint.Verifier.FullTally
import Tendermint.P2P.NonceSequence
import Tendermint.Detector.Evidence
import Tendermint.Detector.Proto
import Tendermint.P2P.Protocol
import Tendermint.Lib.Calendar
import Tendermint.Lib.Decimal
import Tendermint.Lib.Rfc3339
import Tendermint.Types.TimeFormat
import Tendermint.Detector.Examine
import Tendermint.Detector.Detect
import Tendermint.Abci.Application
import Tendermint.Abci.KeyValueStore
import Tendermint.Rpc.Client
import Tendermint.Abci.Client
import Tendermint.Proto.Duration
