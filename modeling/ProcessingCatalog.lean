import ProcessingCatalog.Persistence.MigratedSchema
import ProcessingCatalog.Library.Interleaving
import ProcessingCatalog.Library.Progress
import ProcessingCatalog.Persistence.Progress
import ProcessingCatalog.Application.CreateProcessingRequest
import ProcessingCatalog.Application.Lifecycle
import ProcessingCatalog.Store.Tables
import ProcessingCatalog.Store.History
import ProcessingCatalog.Persistence.TypeOrm
import ProcessingCatalog.Persistence.Alone
import ProcessingCatalog.Persistence.OutboxAgreement
import ProcessingCatalog.Persistence.Serializability
import ProcessingCatalog.Persistence.ExactlyOnce
import ProcessingCatalog.Persistence.CreateOrder
import ProcessingCatalog.Persistence.IdempotentCreate
import ProcessingCatalog.RabbitMq.Texts
import ProcessingCatalog.RabbitMq.Truthful
import ProcessingCatalog.RabbitMq.Poison
import ProcessingCatalog.RabbitMq.Duplicates
import ProcessingCatalog.RabbitMq.WireFormat
import ProcessingCatalog.Messaging.RelayOnce
import ProcessingCatalog.Messaging.DrainInOrder
import ProcessingCatalog.Persistence.ForwardOnly
import ProcessingCatalog.Persistence.RequestShapes
import ProcessingCatalog.Persistence.TruthfulReads
import ProcessingCatalog.Persistence.RedeliveryAbsorbed
import ProcessingCatalog.Persistence.FirstVerdict
import ProcessingCatalog.Messaging.BrokerTold
import ProcessingCatalog.Messaging.Recovery
import ProcessingCatalog.InMemory.Interference
import ProcessingCatalog.InMemory.Interchange
import ProcessingCatalog.InMemory.Owners
import ProcessingCatalog.InMemory.Creation
import ProcessingCatalog.InMemory.Browsing
import ProcessingCatalog.InMemory.Refusals
import ProcessingCatalog.InMemory.UnderLock
import ProcessingCatalog.Interface.CreateProcessingRequestController
import ProcessingCatalog.Interface.Books
import ProcessingCatalog.Interface.Retries
import ProcessingCatalog.JavaScript.Utf8
import ProcessingCatalog.Persistence.IndexEntries
import ProcessingCatalog.Messaging.OutboxRelayScheduler
import ProcessingCatalog.Messaging.CorrelationKept
import ProcessingCatalog.Messaging.Downstream
import ProcessingCatalog.Messaging.PublishAccounting
