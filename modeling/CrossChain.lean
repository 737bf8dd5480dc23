import CrossChain.ForStd.Bytes
import CrossChain.ForStd.EnvM
import CrossChain.ForStd.Digest
import CrossChain.ForStd.CondMachine
import CrossChain.ForStd.PrefixCode
import CrossChain.ForStd.Numerals
import CrossChain.ForStd.Base64
import CrossChain.ForStd.FirstMatch
import CrossChain.ForStd.Span
import CrossChain.ForStd.Assoc
import CrossChain.Native.Basic
import CrossChain.Native.Hex
import CrossChain.Native.BigNum
import CrossChain.Native.Key
import CrossChain.Native.Base58
import CrossChain.Native.Script
import CrossChain.Native.ScriptText
import CrossChain.Native.Transaction
import CrossChain.Native.Json
import CrossChain.Native.Rpc
import CrossChain.Native.Http
import CrossChain.Native.AtomicSwap
import CrossChain.Native.Handlers
import CrossChain.Spec.Recognise
import CrossChain.Spec.Funding
import CrossChain.Spec.ScriptReading
import CrossChain.Spec.ScriptMachine
import CrossChain.Spec.ContractUnlock
import CrossChain.Spec.OperationRuns
import CrossChain.Spec.Spending
import CrossChain.Spec.Extract
import CrossChain.Spec.Timelock
import CrossChain.Spec.Readable
import CrossChain.Spec.Robust
import CrossChain.Spec.Guards
import CrossChain.Spec.FindAndDelete
import CrossChain.Spec.ScriptItems
import CrossChain.Spec.Encoding
import CrossChain.Spec.SignatureHash
import CrossChain.Spec.ScriptNumbers
import CrossChain.Spec.Base58RoundTrip
import CrossChain.Spec.PrivateKeys
import CrossChain.Spec.HexText
import CrossChain.Spec.Txids
import CrossChain.Spec.ContractOutput
import CrossChain.Spec.FeeInput
import CrossChain.Spec.Values
import CrossChain.Spec.HashSpelling
import CrossChain.Spec.Authorization
import CrossChain.Spec.HttpFraming
import CrossChain.ForStd.OrdMap
import CrossChain.Native.JsonWriter
import CrossChain.Native.JsonReader
import CrossChain.Spec.JsonGrammar
import CrossChain.Spec.JsonRoundTrip
import CrossChain.Native.JsonRpc
import CrossChain.Native.Netstring
import CrossChain.Spec.JsonPrefix
import CrossChain.ForStd.Trace
import CrossChain.Native.TcpServer
import CrossChain.Spec.NodeCalls
import CrossChain.Spec.Requests
import CrossChain.ForStd.Refine
import CrossChain.Spec.Serving
import CrossChain.Spec.Replies
import CrossChain.Spec.ServerRuns
import CrossChain.Spec.CallCounts
import CrossChain.Spec.Connections
import CrossChain.Spec.JsonCanonical
import CrossChain.Spec.Framing
import CrossChain.Spec.Registry
