import Wdb2ts.PointData
import Wdb2ts.MergeData
import Wdb2ts.ProviderList
import Wdb2ts.GetValue
import Wdb2ts.LastUsedProvider
import Wdb2ts.Lib.Frame
import Wdb2ts.LocationElem
import Wdb2ts.Precipitation
import Wdb2ts.LocationData
import Wdb2ts.DecodePData
import Wdb2ts.ReadFrame
import Wdb2ts.ReadRuns
import Wdb2ts.NoteManager
import Wdb2ts.NoteUpdates
import Wdb2ts.ProviderReftimes
import Wdb2ts.UpdateProviderReftimes
import Wdb2ts.UpdateFrame
import Wdb2ts.LocationPointMatrix
import Wdb2ts.NearestLand
import Wdb2ts.LandAverage
import Wdb2ts.EncodeMoment
import Wdb2ts.MomentOrder
import Wdb2ts.UrlQuery
import Wdb2ts.UrlRoundTrip
import Wdb2ts.Lib.SqlText
import Wdb2ts.UrlParam
import Wdb2ts.WciWebQuery
import Wdb2ts.WciQueryHistory
import Wdb2ts.WciQueryLiterals
import Wdb2ts.Lib.Replacement
import Wdb2ts.StreamReplace
import Wdb2ts.StreamReads
import Wdb2ts.StreamRefinement
import Wdb2ts.RunRequests
import Wdb2ts.RequestSchedule
import Wdb2ts.RunExceptions
import Wdb2ts.DbConnectionPool
import Wdb2ts.PoolAccounting
import Wdb2ts.ParamDef
import Wdb2ts.QueryMaker
import Wdb2ts.ParamGroups
import Wdb2ts.DecodeRows
import Wdb2ts.QueryMakerParams
import Wdb2ts.QuerySets
import Wdb2ts.DecodedFields
import Wdb2ts.ListedProviders
import Wdb2ts.AskedProviders
import Wdb2ts.UpdateAtomic
import Wdb2ts.Cleanup
import Wdb2ts.SymbolHolder
import Wdb2ts.SymbolThunder
import Wdb2ts.CheckThunder
import Wdb2ts.Lib.KeyedLists
import Wdb2ts.SymbolMerge
import Wdb2ts.SymbolContext
import Wdb2ts.ProviderText
import Wdb2ts.Decimal
import Wdb2ts.Lib.Calendar
import Wdb2ts.PtimeUtil
import Wdb2ts.IsoTimes
import Wdb2ts.NoteProviderReftime
import Wdb2ts.KeysInSections
import Wdb2ts.SectionsRoundTrip
import Wdb2ts.RequestConf
import Wdb2ts.RequestVersions
import Wdb2ts.QueryText
import Wdb2ts.Config
import Wdb2ts.ConfigParamDefs
import Wdb2ts.ConfigParser
import Wdb2ts.ConfigView
import Wdb2ts.ConfigDocuments
import Wdb2ts.ConfigSafety
import Wdb2ts.RejectedQueryDefs
import Wdb2ts.HandlerLookup
import Wdb2ts.DefaultHandler
import Wdb2ts.Lib.NewestKeys
import Wdb2ts.WeatherSymbolDataBuffer
import Wdb2ts.EnableTimePeriod
import Wdb2ts.CyclicPeriods
import Wdb2ts.Lib.MapIterator
import Wdb2ts.NextRun
import Wdb2ts.PrognosisLength
import Wdb2ts.EncodeCSV
import Wdb2ts.IntervalText
import Wdb2ts.CsvReads
import Wdb2ts.HourlySpread
import Wdb2ts.ModelTopography
import Wdb2ts.Lib.Intervals
import Wdb2ts.MeanPeriod
import Wdb2ts.AccumulatedPeriod
import Wdb2ts.Lib.PositiveParts
import Wdb2ts.MeanAgreement
import Wdb2ts.SpreadBounds
import Wdb2ts.MomentRewinds
import Wdb2ts.PeriodSymbols
import Wdb2ts.BreakTimes
import Wdb2ts.BreakTimeRecords
import Wdb2ts.MatrixWindows
import Wdb2ts.PointCoordinates
import Wdb2ts.Map
import Wdb2ts.MapHeights
import Wdb2ts.ReadMapFile
import Wdb2ts.MapFiles
import Wdb2ts.EnabledDates
import Wdb2ts.EraseElements
import Wdb2ts.IncludedRange
import Wdb2ts.NearestTime
import Wdb2ts.MetaModelConf
import Wdb2ts.NextRunSpecs
import Wdb2ts.ScheduledRuns
import Wdb2ts.HttpDates
import Wdb2ts.WebQuery
import Wdb2ts.WebQueryFields
import Wdb2ts.Lib.SortedLists
import Wdb2ts.SymbolSlices
import Wdb2ts.UpdateHandler
import Wdb2ts.DataversionSpecs
import Wdb2ts.Lib.Parentheses
import Wdb2ts.ReftimeWindow
import Wdb2ts.WdbProviders
import Wdb2ts.Lib.FirstOccurrences
import Wdb2ts.ProviderNames
import Wdb2ts.OrderedLocations
import Wdb2ts.NoteListeners
import Wdb2ts.Lib.UniqueKeys
import Wdb2ts.ParamDefMerge
import Wdb2ts.ParamDefProviders
import Wdb2ts.DistinctQuerys
import Wdb2ts.Lib.Answers
import Wdb2ts.ProviderSettings
import Wdb2ts.EmptyData
import Wdb2ts.PercentDecoding
import Wdb2ts.FieldDecoders
import Wdb2ts.ConstantFields
import Wdb2ts.SplitPasses
import Wdb2ts.Lib.Monitor
import Wdb2ts.Queuemt
import Wdb2ts.RequestThreads
import Wdb2ts.UpdateRequests
import Wdb2ts.UpdateRuns
import Wdb2ts.Lib.Hulls
import Wdb2ts.MetaElements
import Wdb2ts.AbortHandlers
import Wdb2ts.RWMutex
