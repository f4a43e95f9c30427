import OperationCatalog.Cache.Interleaving
import OperationCatalog.Main
import OperationCatalog.Cache.History
import OperationCatalog.Proofs.CacheHistory
import OperationCatalog.Proofs.CatalogAssembly
import OperationCatalog.Proofs.JsonNumeral
import OperationCatalog.Proofs.JsonReading
import OperationCatalog.Proofs.ExpressionExchange
import OperationCatalog.Proofs.GracefulDegradation
import OperationCatalog.Proofs.OptionalSegments
import OperationCatalog.Proofs.CaseMapping
import OperationCatalog.Proofs.JsonWriting
import OperationCatalog.Proofs.MethodRoundTrip
import OperationCatalog.Proofs.OptionalMarks
import OperationCatalog.Proofs.ServerHistory
import OperationCatalog.Proofs.CachePortions
import OperationCatalog.Proofs.ConcurrentRequests
import OperationCatalog.Proofs.EnvelopeSchema
import OperationCatalog.Proofs.OptionalPattern
import OperationCatalog.Proofs.RecordRoundTrip
import OperationCatalog.Proofs.BaseEndpointChange
import OperationCatalog.Proofs.BaseEndpointForm
import OperationCatalog.Proofs.ContextReads
import OperationCatalog.Proofs.ObjectIdentity
import OperationCatalog.Proofs.HiddenNames
import OperationCatalog.Proofs.ContextFormat
import OperationCatalog.Proofs.FieldOrder
import OperationCatalog.Proofs.ModelAcceptance
import OperationCatalog.Proofs.SchemaGrammar
import OperationCatalog.Proofs.UnreadParts
import OperationCatalog.Proofs.ConcatNesting
import OperationCatalog.Proofs.ParameterChains
import OperationCatalog.Proofs.NullableSpellings
import OperationCatalog.Proofs.CanonicalVerbs
import OperationCatalog.Proofs.RootTokens
import OperationCatalog.Proofs.OptionUnits
