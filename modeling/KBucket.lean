import KBucket.Lib.Run
import KBucket.Lib.Table
import KBucket.Lib.CellTable
import KBucket.Lib.Refinement
import KBucket.Lib.Exchange
import KBucket.Lib.PredicateFormat
import KBucket.Lib.FormUrl
import KBucket.Lib.DataSource
import KBucket.Lib.Dlseg
import KBucket.Lib.Version
import KBucket.Lib.Base64
import KBucket.Lib.Multipart
import KBucket.Lib.Calendar
import KBucket.Lib.DateFormat
import KBucket.Lib.WeekYear
import KBucket.Lib.Hex
import KBucket.Lib.Replace
import KBucket.Foundation
import KBucket.Bucket
import KBucket.Json
import KBucket.Schema
import KBucket.Managers.Http
import KBucket.Managers.HttpUrlTaskManager
import KBucket.Managers.HttpUrlFileUploadManager
import KBucket.Utils.SQLQuery
import KBucket.Utils.StringUtils
import KBucket.Utils.ContextUtils
import KBucket.Utils.ViewUtils
import KBucket.Utils.LinkedList
import KBucket.Utils.DateUtils
import KBucket.Utils.DataUtils
import KBucket.Utils.UIColor
import KBucket.View.TableCell
import KBucket.View.FirstCustomCell
import KBucket.View.PassWordView
import KBucket.View.WriteView
import KBucket.View.WriteDetailView
import KBucket.View.WriteDetailPhoto
import KBucket.View.DatePicker
import KBucket.View.BucketListView
import KBucket.View.BucketListShare
import KBucket.View.AddBucketView
import KBucket.View.RankListView
import KBucket.View.ShareListView
import KBucket.View.ShareDetailView
import KBucket.View.ShareDetailForm
import KBucket.View.NoticeView
import KBucket.View.ViewController
import KBucket.View.SetBackColorView
import KBucket.View.SettingView
import KBucket.View.SetNickNameView
import KBucket.View.MainView
import KBucket.App
import KBucket.Shell
import KBucket.Preferences
import KBucket.TouchScreen
import KBucket.NoticeScreen
import KBucket.Ledger
import KBucket.Photos
import KBucket.RankScreen
import KBucket.ShareScreen
import KBucket.ShareExchange
import KBucket.CommentThread
import KBucket.RankExchange
import KBucket.Proof.ContentQuery
import KBucket.Proof.PassWord
import KBucket.Proof.Store
import KBucket.Proof.Detail
import KBucket.Proof.WriteList
import KBucket.Proof.Ledger
import KBucket.Proof.TouchScreen
import KBucket.Proof.Duplicate
import KBucket.Proof.PostData
import KBucket.Proof.RankList
import KBucket.Proof.ShareList
import KBucket.Proof.Rows
import KBucket.Proof.Category
import KBucket.Proof.Vote
import KBucket.Proof.LinkedList
import KBucket.Proof.Version
import KBucket.Proof.CommentList
import KBucket.Proof.Exchange
import KBucket.Proof.CommentThread
import KBucket.Proof.RankExchange
import KBucket.Proof.NoticeList
import KBucket.Proof.NoticeScreen
import KBucket.Proof.Answer
import KBucket.Proof.Replace
import KBucket.Proof.Completion
import KBucket.Proof.Upload
import KBucket.Proof.PhotoName
import KBucket.Proof.ShareImage
import KBucket.Proof.Photos
import KBucket.Proof.Insertion
import KBucket.Proof.Sorting
import KBucket.Proof.Partition
import KBucket.Proof.Indicators
import KBucket.Proof.ConvertString
import KBucket.Proof.Theme
import KBucket.Proof.Preferences
import KBucket.Proof.Updates
import KBucket.Proof.Unseen
import KBucket.Proof.Shell
import KBucket.Proof.ShellLedger
import KBucket.Proof.CellReuse
import KBucket.Proof.PickedDate
import KBucket.Proof.Dates
