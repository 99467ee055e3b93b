import MarketBook.Text.Blank
import MarketBook.Text.Upper
import MarketBook.Text.Quoted
import MarketBook.Text.Utf8
import MarketBook.Text.Numeral
import MarketBook.Decimal.Layout
import MarketBook.Decimal.Reader
import MarketBook.Json.Reader
import MarketBook.Json.Printer
import MarketBook.Bucket
import MarketBook.Time.Instant
import MarketBook.Time.Rails
import MarketBook.Timeframe.Reader
import MarketBook.Bar.Admission
import MarketBook.Bar.Rows
import MarketBook.Zone.Wall
import MarketBook.Zone.Resolve
import MarketBook.Calendar.ClockTime
import MarketBook.Calendar.Holiday
import MarketBook.Json.Record
import MarketBook.Calendar.Profile
import MarketBook.Calendar.State
import MarketBook.Calendar.Bucket
import MarketBook.Disk.Place
import MarketBook.Disk.Publish
import MarketBook.Cache.Table
import MarketBook.Cache.Meta
import MarketBook.Cache.Store
import MarketBook.Calendar.Handle
import MarketBook.Archive.Store
import MarketBook.Settings.Wiring
import MarketBook.CommandLine.Run
import MarketBook.Main
import MarketBook.Proofs.ZoneClock
import MarketBook.Proofs.WallInstants
import MarketBook.Proofs.Outcomes
import MarketBook.Proofs.ClosureLists
import MarketBook.Proofs.HealthyCalendar
import MarketBook.Proofs.SpanLists
import MarketBook.Proofs.OpenRuns
import MarketBook.Proofs.DaySchedule
import MarketBook.Proofs.Transitions
import MarketBook.Proofs.DayBuckets
import MarketBook.Proofs.Reopenings
import MarketBook.Proofs.DiskPaths
import MarketBook.Proofs.Effects
import MarketBook.Proofs.Publication
import MarketBook.Proofs.RowLists
import MarketBook.Proofs.SoundBars
import MarketBook.Proofs.CacheOperations
import MarketBook.Proofs.CacheFiles
import MarketBook.Proofs.CacheRuns
import MarketBook.Proofs.CsvRecords
import MarketBook.Proofs.NearestWords
import MarketBook.Proofs.Numerals
import MarketBook.Proofs.ShortestDigits
import MarketBook.Proofs.DecimalTexts
import MarketBook.Proofs.TableTexts
import MarketBook.Proofs.JsonRecords
import MarketBook.Proofs.JsonTexts
import MarketBook.Proofs.JsonValues
import MarketBook.Proofs.MetaTexts
import MarketBook.Proofs.CacheNumbers
import MarketBook.Proofs.SaveThenLoad
import MarketBook.Proofs.NewestRows
import MarketBook.Proofs.WorkingDevices
import MarketBook.Proofs.WorkingCaches
import MarketBook.Proofs.BarBatches
import MarketBook.Proofs.Subscriptions
import MarketBook.Proofs.BrokenPublications
import MarketBook.Proofs.BrokenSaves
import MarketBook.Proofs.SoundProfiles
import MarketBook.Proofs.CalendarReloads
import MarketBook.Proofs.ArchiveTables
import MarketBook.Proofs.ArchiveRuns
import MarketBook.Proofs.ProfileTexts
import MarketBook.Proofs.BoundedTables
import MarketBook.Proofs.PendingHeartbeats
import MarketBook.Proofs.FileNames
import MarketBook.Proofs.AlikeDisks
import MarketBook.Proofs.SharedDirectories
import MarketBook.Proofs.ClosureSets
import MarketBook.Proofs.WallPolicies
import MarketBook.Proofs.LastCloses
import MarketBook.Proofs.ClosedReasons
import MarketBook.Proofs.MergeReports
import MarketBook.Proofs.RefusedOperations
import MarketBook.Proofs.UpperCase
import MarketBook.Proofs.NormalSymbols
import MarketBook.Proofs.OwnBars
import MarketBook.Proofs.CivilDates
import MarketBook.Proofs.SpanDifference
import MarketBook.Proofs.DateTexts
import MarketBook.Proofs.HolidayClosures
import MarketBook.Proofs.MergedSettings
